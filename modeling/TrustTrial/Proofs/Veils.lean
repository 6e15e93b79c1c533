import TrustTrial.Proofs.Dicts
import TrustTrial.Proofs.Trace

/-!
# TrustTrial.Proofs.Veils

What a trial looks like to those who are not told its secrets. Requests, events and log entries are
`veiled`; two runners that differ in credentials and passphrases only (`Runner.Matches`) make the
same requests behind the veil, and show the same command lines. A client is `Blind` if its answers
tell no more than that.
-/

namespace TrustTrial

open Disk

/-! ## Requests without their secrets -/

/-- The variables that carry passphrases. -/
def secretVariables : List String := Passphrases.default.assignments.map Prod.fst

/-- A request without its input and without the variables that carry passphrases. -/
def Request.veiled (q : Request) : Request :=
  { q with stdin := .empty, environment := secretVariables.foldl Dict.erase q.environment }

def Event.veiled : Event → Event
  | .called request reply => .called request.veiled reply
  | e => e

/-- What the log tells about a call, without the size of its input. -/
def CallRecord.veiled (entry : CallRecord) : CallRecord := { entry with stdinBytes := 0 }

/-- Passphrases that can be passed to a program. -/
def Passphrases.Passable (p : Passphrases) : Prop :=
  ∀ v ∈ p.assignments, Path.hasNul v.2 = false

instance (p : Passphrases) : Decidable p.Passable :=
  inferInstanceAs (Decidable (∀ v ∈ p.assignments, Path.hasNul v.2 = false))

/-- Two environments that are the same but for the values of passphrases, all of which can be
passed on. -/
def Disguised (a b : Dict String) : Prop :=
  ∀ name, a.get? name = b.get? name ∨ name ∈ secretVariables ∧ ∃ v w,
    a.get? name = some v ∧ b.get? name = some w ∧ Path.hasNul v = false ∧ Path.hasNul w = false

section Environments

variable {a b : Dict String} {es : List (String × String)}

theorem Disguised.refl (a : Dict String) : Disguised a a := fun _ => .inl rfl

theorem Disguised.symm (h : Disguised a b) : Disguised b a := by
  intro name
  rcases h name with heq | ⟨hname, v, w, hv, hw, hnul, hnul'⟩
  · exact .inl heq.symm
  · exact .inr ⟨hname, w, v, hw, hv, hnul', hnul⟩

theorem Disguised.insert (h : Disguised a b) (k v : String) :
    Disguised (a.insert k v) (b.insert k v) := by
  intro name
  rw [Dict.get?_insert, Dict.get?_insert]
  split
  · exact .inl rfl
  · exact h name

theorem Disguised.insert_secret (h : Disguised a b) {k v w : String} (hk : k ∈ secretVariables)
    (hv : Path.hasNul v = false) (hw : Path.hasNul w = false) :
    Disguised (a.insert k v) (b.insert k w) := by
  intro name
  rw [Dict.get?_insert, Dict.get?_insert]
  split
  · rename_i he
    exact .inr ⟨he ▸ hk, v, w, rfl, rfl, hv, hw⟩
  · exact h name

theorem Disguised.foldl (h : Disguised a b) :
    Disguised (es.foldl (fun d e => d.insert e.1 e.2) a)
      (es.foldl (fun d e => d.insert e.1 e.2) b) := by
  induction es generalizing a b with
  | nil => exact h
  | cons e es ih => exact ih (h.insert e.1 e.2)

/-- Passphrases of the same variables, one after the other. -/
theorem Disguised.assign {fs : List (String × String)} (h : Disguised a b)
    (hnames : es.map Prod.fst = fs.map Prod.fst) (hsecret : ∀ e ∈ es, e.1 ∈ secretVariables)
    (hes : ∀ e ∈ es, Path.hasNul e.2 = false) (hfs : ∀ e ∈ fs, Path.hasNul e.2 = false) :
    Disguised (es.foldl (fun d e => d.insert e.1 e.2) a)
      (fs.foldl (fun d e => d.insert e.1 e.2) b) := by
  induction es generalizing fs a b with
  | nil =>
    obtain rfl := List.map_eq_nil_iff.1 hnames.symm
    exact h
  | cons e es ih =>
    obtain ⟨f, fs, rfl⟩ := List.exists_cons_of_ne_nil (l := fs) (by rintro rfl; cases hnames)
    obtain ⟨hname, hnames⟩ := List.cons.inj hnames
    rw [List.forall_mem_cons] at hsecret hes hfs
    have hfirst : Disguised (a.insert e.1 e.2) (b.insert f.1 f.2) := by
      rw [← hname]
      exact h.insert_secret hsecret.1 hes.1 hfs.1
    rw [List.foldl_cons, List.foldl_cons]
    exact ih hfirst hnames hsecret.2 hes.2 hfs.2

theorem disguised_assignments {p p' : Passphrases} (hp : p.Passable) (hp' : p'.Passable)
    (d : Dict String) :
    Disguised (p.assignments.foldl (fun d e => d.insert e.1 e.2) d)
      (p'.assignments.foldl (fun d e => d.insert e.1 e.2) d) := by
  have hsecret : ∀ e ∈ p.assignments, e.1 ∈ secretVariables := fun e he =>
    (List.mem_map_of_mem he : e.1 ∈ p.assignments.map Prod.fst)
  exact (Disguised.refl d).assign rfl hsecret hp hp'

theorem Disguised.erased (h : Disguised a b) :
    secretVariables.foldl Dict.erase a = secretVariables.foldl Dict.erase b := by
  refine Dict.eq_of_get? fun name => ?_
  rw [Dict.get?_foldl_erase, Dict.get?_foldl_erase]
  rcases h name with heq | ⟨hname, -⟩
  · rw [heq]
  · rw [if_pos hname, if_pos hname]

theorem hasNul_secretVariables : ∀ name ∈ secretVariables, Path.hasNul name = false := by decide

/-- Some variable cannot be passed on. -/
def Unfit (d : Dict String) : Prop :=
  ∃ k v, d.get? k = some v ∧ (Path.hasNul k || Path.hasNul v) = true

theorem Disguised.unfit (h : Disguised a b) (ha : Unfit a) : Unfit b := by
  obtain ⟨k, v, hv, hnul⟩ := ha
  rcases h k with heq | ⟨hk, v', w, hv', hw, hnul', -⟩
  · exact ⟨k, v, heq ▸ hv, hnul⟩
  · -- A secret variable has a name and a value that can be passed on.
    have hname := hasNul_secretVariables k hk
    obtain rfl := Option.some.inj (hv.symm.trans hv')
    rw [hname, hnul'] at hnul
    cases hnul

theorem any_hasNul_iff (d : Dict String) :
    (d.toList.any fun v => Path.hasNul v.1 || Path.hasNul v.2) = true ↔ Unfit d := by
  rw [List.any_eq_true]
  constructor
  · rintro ⟨⟨k, v⟩, hmem, hnul⟩
    exact ⟨k, v, Dict.mem_toList.1 hmem, hnul⟩
  · rintro ⟨k, v, hv, hnul⟩
    exact ⟨(k, v), Dict.mem_toList.2 hv, hnul⟩

theorem Disguised.any_hasNul (h : Disguised a b) :
    (a.toList.any fun v => Path.hasNul v.1 || Path.hasNul v.2) =
      b.toList.any fun v => Path.hasNul v.1 || Path.hasNul v.2 := by
  rw [Bool.eq_iff_iff, any_hasNul_iff, any_hasNul_iff]
  exact ⟨h.unfit, h.symm.unfit⟩

end Environments

/-! ## Runners with other secrets -/

namespace Runner

variable {σ : Type} {r r' : Runner}

/-- Two runners that differ in credentials and passphrases only. -/
structure Matches (r r' : Runner) : Prop where
  binary : r.binary = r'.binary
  server : r.server = r'.server
  localConfig : r.localConfig = r'.localConfig
  echo : r.echo = r'.echo
  passable : r.passphrases.Passable ∧ r'.passphrases.Passable

theorem Matches.arguments (h : r.Matches r') (i : Invocation) :
    r.arguments i = r'.arguments i := by
  rw [Runner.arguments, Runner.arguments, serverFlags, serverFlags, h.server, h.localConfig]

/-- The command line, which is shown and told in messages, has no secrets in it. -/
theorem Matches.commandLine (h : r.Matches r') (i : Invocation) :
    r.commandLine i = r'.commandLine i := by
  rw [Runner.commandLine, Runner.commandLine, h.binary, h.arguments i]

theorem Matches.environment (h : r.Matches r') (i : Invocation) (inherited : Dict String) :
    Disguised (r.environment i inherited) (r'.environment i inherited) := by
  rw [Runner.environment, Runner.environment, List.foldl_append, List.foldl_append]
  exact (disguised_assignments h.passable.1 h.passable.2 inherited).foldl

theorem Matches.veiled (h : r.Matches r') (m : Machine σ) (i : Invocation) :
    (r.request m i).veiled = (r'.request m i).veiled := by
  have henvironment := (h.environment i m.environment).erased
  simp only [Request.veiled, request, henvironment, h.binary, h.arguments i]

theorem Matches.barred (h : r.Matches r') (m : Machine σ) (i : Invocation) (disk : Tree) :
    (r.request m i).barred disk = (r'.request m i).barred disk := by
  have hprogram : (r.request m i).program = (r'.request m i).program := h.binary
  have hargs : (r.request m i).args = (r'.request m i).args := h.arguments i
  have henvironment : ((r.request m i).environment.toList.any
      fun v => Path.hasNul v.1 || Path.hasNul v.2) =
        (r'.request m i).environment.toList.any fun v => Path.hasNul v.1 || Path.hasNul v.2 :=
    (h.environment i m.environment).any_hasNul
  rw [Request.barred, Request.barred, henvironment, hprogram, hargs]
  rfl

end Runner

/-! ## Clients that do not give secrets away -/

/-- What a client answers to requests one after the other, with the files as they are each time: its
replies, and the files afterwards. -/
def Client.answers {σ : Type} (c : Client σ) : σ → List (Request × Tree) → List (Reply × Tree)
  | _, [] => []
  | s, (q, t) :: asked =>
    ((c.run q s t).1, (c.run q s t).2.2) :: c.answers (c.run q s t).2.1 asked

/-- In two states a client answers all requests alike, and it does not matter what is secret in
them. -/
def Client.Blind {σ : Type} (c : Client σ) (s s' : σ) : Prop :=
  ∀ asked asked' : List (Request × Tree),
    asked.map (fun a => (a.1.veiled, a.2)) = asked'.map (fun a => (a.1.veiled, a.2)) →
      c.answers s asked = c.answers s' asked'

theorem Client.Blind.symm {σ : Type} {c : Client σ} {s s' : σ} (h : c.Blind s s') :
    c.Blind s' s :=
  fun asked asked' hasked => (h asked' asked hasked.symm).symm

/-- One answer on, nothing has been given away. -/
theorem Client.Blind.run {σ : Type} {c : Client σ} {s s' : σ} (h : c.Blind s s') {q q' : Request}
    (hq : q.veiled = q'.veiled) (t : Tree) :
    (c.run q s t).1 = (c.run q' s' t).1 ∧ (c.run q s t).2.2 = (c.run q' s' t).2.2 ∧
      c.Blind (c.run q s t).2.1 (c.run q' s' t).2.1 := by
  have hnow := h [(q, t)] [(q', t)] (by simp [hq])
  simp only [Client.answers, List.cons.injEq, Prod.mk.injEq, and_true] at hnow
  refine ⟨hnow.1, hnow.2, fun asked asked' hasked => ?_⟩
  have hlater := h ((q, t) :: asked) ((q', t) :: asked') (by simp [hq, hasked])
  exact (List.cons.inj hlater).2

end TrustTrial
