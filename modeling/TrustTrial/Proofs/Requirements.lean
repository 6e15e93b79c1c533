import TrustTrial.Proofs.Chronicles
import TrustTrial.Proofs.Hearing

/-!
# TrustTrial.Proofs.Requirements

What a command of the notary wants to find before it changes anything: a confirmation, a login,
passphrases, and files that are there, are not there, or can be read. `requirements` lists them for
every form of a command, and all other words are no command.

`hinges_command` says that they decide. If one of them is not met, the command fails and leaves all
files as they were; if all are met, only writing can fail. Every part of a command is shown to hinge
on its own conditions, and they add up (`Step.Hinges.bind`) because a step that only looks leaves the
files for the next one to find as they were. That a failure leaves nothing behind is read off that
(`run_leaves_nothing`).
-/

namespace TrustTrial
namespace Notary

open Disk

/-! ## Steps that hinge on a condition -/

namespace Step

variable {α β : Type} {x y : Step α} {f : α → Step β} {d e : Desk} {t : Tree} {P Q R : Prop}

/-- A step that fails here, and leaves the files as they are. -/
def Refuses (x : Step α) (d : Desk) : Prop :=
  ∃ trouble e, run x d = (.error trouble, e) ∧ e.disk = d.disk

/-- A step that fails here by writing, if at all. -/
def Proceeds (x : Step α) (d : Desk) : Prop :=
  ∀ trouble e, run x d = (.error trouble, e) → trouble.writing = true

/-- A condition decides whether a step is refused here or can only fail by writing. -/
structure Hinges (x : Step α) (d : Desk) (P : Prop) : Prop where
  refuses : ¬P → Refuses x d
  proceeds : P → Proceeds x d

theorem Hinges.congr (h : Hinges x d P) (hP : P ↔ Q) : Hinges x d Q :=
  ⟨fun hQ => h.refuses (hQ ∘ hP.1), fun hQ => h.proceeds (hP.2 hQ)⟩

theorem Firm.hinges (h : Firm x) (d : Desk) : Hinges x d True :=
  ⟨fun hfalse => absurd trivial hfalse, fun _ trouble e hrun => h d e trouble hrun⟩

theorem refuses_throw (trouble : Trouble) (d : Desk) : Refuses (throw trouble : Step α) d :=
  ⟨trouble, d, rfl, rfl⟩

theorem Refuses.bind (h : Refuses x d) : Refuses (x >>= f) d := by
  obtain ⟨trouble, e, hrun, he⟩ := h
  exact ⟨trouble, e, by rw [run_bind, hrun], he⟩

/-- What follows a look may rely on what was seen. -/
theorem Hinges.bind_of (hx : Quiet x) (hproceeds : R → Proceeds x d)
    (hf : ∀ a e, run x d = (.ok a, e) → e.disk = d.disk → Hinges (f a) e R) :
    Hinges (x >>= f) d R := by
  have hdisk : ∀ result e, run x d = (result, e) → e.disk = d.disk :=
    fun result e hrun => (hx.at hrun (.refl d)).disk
  constructor
  · intro hR
    cases hrun : run x d with
    | mk result e =>
      have he := hdisk result e hrun
      cases result with
      | error trouble => exact ⟨trouble, e, by rw [run_bind, hrun], he⟩
      | ok a =>
        obtain ⟨trouble, e', hrun', he'⟩ := (hf a e hrun he).refuses hR
        exact ⟨trouble, e', by rw [run_bind, hrun]; exact hrun', he'.trans he⟩
  · intro hR trouble e' hbind
    rw [run_bind] at hbind
    cases hrun : run x d with
    | mk result e =>
      rw [hrun] at hbind
      cases result with
      | error other =>
        cases hbind
        exact hproceeds hR _ _ hrun
      | ok a => exact (hf a e hrun (hdisk _ e hrun)).proceeds hR _ _ hbind

/-- The condition of a step that succeeds is met. -/
theorem Hinges.met (hP : Hinges x d P) {a : α} (hrun : run x d = (.ok a, e)) : P := by
  refine Classical.byContradiction fun hnot => ?_
  obtain ⟨trouble, e', hrun', -⟩ := hP.refuses hnot
  rw [hrun] at hrun'
  cases hrun'

/-- One condition after another. -/
theorem Hinges.bind (hx : Quiet x) (hP : Hinges x d P)
    (hf : ∀ a e, run x d = (.ok a, e) → e.disk = d.disk → Hinges (f a) e Q) :
    Hinges (x >>= f) d (P ∧ Q) := by
  refine .bind_of hx (fun h => hP.proceeds h.1) fun a e hrun he => ?_
  exact (hf a e hrun he).congr (by simp [hP.met hrun])

theorem Hinges.firm (h : Hinges x d P) (hf : ∀ a, Firm (f a)) : Hinges (x >>= f) d P := by
  constructor
  · exact fun hP => (h.refuses hP).bind
  · intro hP trouble e hbind
    rw [run_bind] at hbind
    split at hbind
    · rename_i hrun
      cases hbind
      exact h.proceeds hP _ _ hrun
    · exact hf _ _ _ _ hbind

/-- A step whose failures are all ordinary ones: it never stops in the middle. -/
def Ordinary (x : Step α) : Prop :=
  ∀ d e trouble, run x d = (.error trouble, e) → trouble.exit = 1

theorem ordinary_pure (a : α) : Ordinary (pure a : Step α) := fun _ _ _ h => nomatch h

theorem ordinary_throw {trouble : Trouble} (h : trouble.exit = 1) :
    Ordinary (throw trouble : Step α) := by
  intro d e other hrun
  cases hrun
  exact h

theorem ordinary_look {g : Tree → Except Trouble α}
    (h : ∀ t trouble, g t = .error trouble → trouble.exit = 1) : Ordinary (look g) := by
  intro d e trouble hrun
  exact h d.disk trouble (congrArg Prod.fst hrun)

theorem Firm.ordinary (h : Firm x) : Ordinary x := by
  intro d e trouble hrun
  have hwriting := h d e trouble hrun
  cases trouble with
  | exhausted => cases hwriting
  | _ => rfl

theorem Ordinary.bind (hx : Ordinary x) (hf : ∀ a, Ordinary (f a)) : Ordinary (x >>= f) := by
  intro d e trouble h
  rw [run_bind] at h
  split at h
  · rename_i hrun
    cases h
    exact hx _ _ _ hrun
  · exact hf _ _ _ _ h

/-- A step that may stop in the middle here, but only if a condition is met. -/
def Halts (x : Step α) (d : Desk) (P : Prop) : Prop :=
  ∀ trouble e, run x d = (.error trouble, e) → trouble.exit = 1 ∨ P

theorem Ordinary.halts (h : Ordinary x) (d : Desk) (P : Prop) : Halts x d P :=
  fun trouble e hrun => .inl (h d e trouble hrun)

theorem Halts.mono (h : Halts x d P) (hP : P → Q) : Halts x d Q :=
  fun trouble e hrun => (h trouble e hrun).imp_right hP

/-- What comes after a step is reached only if the condition of the step is met. -/
theorem Halts.bind (hquiet : Quiet x) (hx : Ordinary x) (hP : Hinges x d P)
    (hf : ∀ a e, run x d = (.ok a, e) → e.disk = d.disk → Halts (f a) e Q) :
    Halts (x >>= f) d (P ∧ Q) := by
  intro trouble e h
  rw [run_bind] at h
  split at h
  · rename_i hrun
    cases h
    exact .inl (hx _ _ _ hrun)
  · rename_i a d' hrun
    have hd' := (hquiet.at hrun (.refl d)).disk
    exact (hf a d' hrun hd' trouble e h).imp_right fun hQ => ⟨hP.met hrun, hQ⟩

theorem Hinges.halts (hP : Hinges x d P) (hquiet : Quiet x) (hx : Ordinary x) :
    Halts (x >>= f) d P :=
  (Halts.bind hquiet hx hP fun _ _ _ _ _ _ _ => .inr trivial).mono And.left

theorem Halts.ordinary (hx : Halts x d P) (hf : ∀ a, Ordinary (f a)) : Halts (x >>= f) d P := by
  intro trouble e h
  rw [run_bind] at h
  split at h
  · rename_i hrun
    cases h
    exact hx _ _ hrun
  · exact .inl (hf _ _ _ _ h)

end Step

open Step

/-! ## Reading -/

/-- What a file says, read in a given shape. -/
def Says {α : Type} (t : Tree) (here : Location) (shape : Json.Shape)
    (ofValue? : Json.Value → Option α) (path : String) (a : α) : Prop :=
  ∃ text, t.readText here path = .ok text ∧ readAs shape ofValue? text = .ok a

section Reading

variable {α : Type} {t : Tree} {here : Location} {shape : Json.Shape}
  {ofValue? : Json.Value → Option α} {path server repo name : String} {o : Office} {a b : α}
  {d e : Desk}

theorem Says.unique (ha : Says t here shape ofValue? path a)
    (hb : Says t here shape ofValue? path b) : a = b := by
  obtain ⟨text, htext, ha⟩ := ha
  obtain ⟨text', htext', hb⟩ := hb
  obtain rfl := Except.ok.inj (htext.symm.trans htext')
  exact Except.ok.inj (ha.symm.trans hb)

theorem hinges_present : Hinges (present here path) d True :=
  ⟨fun h => absurd trivial h, fun _ _ _ h => nomatch h⟩

theorem run_readFile_eq (d : Desk) :
    Step.run (readFile here shape ofValue? path) d =
      (match d.disk.readText here path with
        | .error fault => .error (.unreadable path fault)
        | .ok text =>
          match readAs shape ofValue? text with
          | .error fault => .error (.unparsable path fault)
          | .ok a => .ok a, d) := by
  have hlook : Step.run (readText here path) d =
      (match d.disk.readText here path with
        | .error fault => .error (.unreadable path fault)
        | .ok text => .ok text, d) := rfl
  rw [readFile, run_bind, hlook]
  cases d.disk.readText here path with
  | error fault => rfl
  | ok text =>
    dsimp only
    cases readAs shape ofValue? text <;> rfl

theorem says_of_readFile (h : Step.run (readFile here shape ofValue? path) d = (.ok a, e)) :
    Says d.disk here shape ofValue? path a := by
  rw [run_readFile_eq] at h
  cases htext : d.disk.readText here path with
  | error fault => simp [htext] at h
  | ok text =>
    cases hread : readAs shape ofValue? text with
    | error fault => simp [htext, hread] at h
    | ok b =>
      simp only [htext, hread, Prod.mk.injEq, Except.ok.injEq] at h
      exact ⟨text, htext, h.1 ▸ hread⟩

theorem hinges_readFile :
    Hinges (readFile here shape ofValue? path) d (∃ a, Says d.disk here shape ofValue? path a) := by
  constructor
  · intro hnot
    cases hrun : Step.run (readFile here shape ofValue? path) d with
    | mk result e =>
      cases result with
      | ok a => exact absurd ⟨a, says_of_readFile hrun⟩ hnot
      | error trouble =>
        exact ⟨trouble, e, hrun, ((quiet_readFile here shape ofValue? path).at hrun (.refl d)).disk⟩
  · rintro ⟨a, text, htext, hread⟩ trouble e hrun
    rw [run_readFile htext hread] at hrun
    cases hrun

/-- A file that has to be readable only if it is there. -/
theorem hinges_readList :
    Hinges (readList here shape ofValue? path) d
      (d.disk.leads here path = true →
        ∃ xs, Says d.disk here (.listOf shape) (toList? ofValue?) path xs) := by
  refine .bind_of (quiet_present here path) (fun _ => hinges_present.proceeds trivial) ?_
  intro found e hrun _
  obtain ⟨hfound, rfl⟩ := Prod.mk.inj (run_present.symm.trans hrun)
  obtain rfl := Except.ok.inj hfound
  split
  · rename_i hleads
    exact hinges_readFile.congr (by simp [hleads])
  · rename_i hleads
    exact ((firm_pure _).hinges d).congr (by simp [hleads])

theorem says_of_readList {xs : List α}
    (h : Step.run (readList here shape ofValue? path) d = (.ok xs, e)) :
    (d.disk.leads here path = true →
        Says d.disk here (.listOf shape) (toList? ofValue?) path xs) ∧
      (d.disk.leads here path = false → xs = []) := by
  obtain ⟨found, d', hfound, h⟩ := run_bind_ok h
  obtain ⟨hfound', rfl⟩ := Prod.mk.inj (run_present.symm.trans hfound)
  obtain rfl := Except.ok.inj hfound'
  split at h
  · rename_i hleads
    exact ⟨fun _ => says_of_readFile h, fun hnot => absurd (hleads.symm.trans hnot) (by decide)⟩
  · rename_i hleads
    cases h
    exact ⟨fun hthere => absurd hthere hleads, fun _ => rfl⟩

theorem hinges_loadRecord :
    Hinges (loadRecord here server repo) d
      (∃ r, Says d.disk here Record.shape Record.ofValue? (recordPath server repo) r) := by
  refine .bind_of (quiet_present here _) (fun _ => hinges_present.proceeds trivial) ?_
  intro found e hrun _
  obtain ⟨hfound, rfl⟩ := Prod.mk.inj (run_present.symm.trans hrun)
  obtain rfl := Except.ok.inj hfound
  split
  · exact hinges_readFile
  · rename_i hleads
    refine ⟨fun _ => refuses_throw _ d, ?_⟩
    rintro ⟨r, text, htext, -⟩
    exact absurd (leads_of_readText htext) hleads

theorem says_of_loadRecord {r : Record}
    (h : Step.run (loadRecord here server repo) d = (.ok r, e)) :
    Says d.disk here Record.shape Record.ofValue? (recordPath server repo) r := by
  obtain ⟨found, d', hfound, h⟩ := run_bind_ok h
  obtain ⟨-, rfl⟩ := Prod.mk.inj (run_present.symm.trans hfound)
  split at h
  · exact says_of_readFile h
  · cases h

theorem hinges_readBytes :
    Hinges (readBytes here path) d (∃ data, d.disk.readBytes here path = .ok data) := by
  cases hdata : d.disk.readBytes here path with
  | error fault =>
    have hrun : Step.run (readBytes here path) d = (.error (.unreadable path fault), d) := by
      simp only [Step.run, readBytes, look, hdata]
    exact ⟨fun _ => ⟨_, d, hrun, rfl⟩, by simp⟩
  | ok data =>
    have hrun : Step.run (readBytes here path) d = (.ok data, d) := by
      simp only [Step.run, readBytes, look, hdata]
    refine ⟨by simp, fun _ trouble e herror => ?_⟩
    rw [hrun] at herror
    cases herror

theorem readBytes_of_run {data : ByteArray} (h : Step.run (readBytes here path) d = (.ok data, e)) :
    d.disk.readBytes here path = .ok data := by
  simp only [Step.run, readBytes, look, Prod.mk.injEq] at h
  split at h
  · cases h.1
  · rename_i found hfound
    rw [hfound, ← Except.ok.inj h.1]

theorem hinges_requirePassphrase :
    Hinges (requirePassphrase o name) d
      (∃ value, o.environment.get? name = some value ∧ value ≠ "") := by
  unfold requirePassphrase
  split
  · rename_i hnone
    exact ⟨fun _ => refuses_throw _ d, by simp [hnone]⟩
  · rename_i value hvalue
    split
    · rename_i hempty
      refine ⟨fun _ => refuses_throw _ d, ?_⟩
      rintro ⟨other, hother, hne⟩
      obtain rfl := Option.some.inj (hvalue.symm.trans hother)
      exact absurd (String.isEmpty_iff.1 hempty) hne
    · rename_i hempty
      exact ((firm_pure _).hinges d).congr
        (iff_of_true trivial ⟨value, hvalue, fun he => hempty (String.isEmpty_iff.2 he)⟩)

theorem ordinary_present : Ordinary (present here path) :=
  ordinary_look fun _ _ h => nomatch h

theorem ordinary_readBytes : Ordinary (readBytes here path) := by
  refine ordinary_look fun t trouble h => ?_
  split at h <;> cases h
  rfl

theorem ordinary_readText : Ordinary (readText here path) := by
  refine ordinary_look fun t trouble h => ?_
  split at h <;> cases h
  rfl

theorem ordinary_readFile : Ordinary (readFile here shape ofValue? path) := by
  refine ordinary_readText.bind fun text => ?_
  split
  · exact ordinary_throw rfl
  · exact ordinary_pure _

theorem ordinary_readList : Ordinary (readList here shape ofValue? path) := by
  refine ordinary_present.bind fun found => ?_
  split
  · exact ordinary_readFile
  · exact ordinary_pure _

theorem ordinary_loadRecord : Ordinary (loadRecord here server repo) := by
  refine ordinary_present.bind fun found => ?_
  split
  · exact ordinary_readFile
  · exact ordinary_throw rfl

theorem ordinary_requirePassphrase : Ordinary (requirePassphrase o name) := by
  unfold requirePassphrase
  split
  · exact ordinary_throw rfl
  · split
    · exact ordinary_throw rfl
    · exact ordinary_pure _

end Reading

/-! ## Confirmation and login -/

/-- The first line of an input confirms. -/
def Confirmed (input : List UInt8) : Prop :=
  ∃ line, lineAt input 0 = some line ∧ Text.trim line = "yes"

/-- The login of a server can be read, and two lines of the input, from a given one on, are the user
name and the password in it. -/
def Known (t : Tree) (here : Location) (server : String) (input : List UInt8) (n : Nat) : Prop :=
  ∃ expected, Says t here Login.shape Login.ofValue? (loginPath server) expected ∧
    lineAt input n = some expected.username ∧ lineAt input (n + 1) = some expected.password

/-- The input has the login of a server, if one is to be seen. -/
def Admitted (t : Tree) (here : Location) (server : String) (input : List UInt8) (n : Nat) : Prop :=
  t.leads here (loginPath server) = true → Known t here server input n

section Entrance

variable {α : Type} {here : Location} {server : String} {c : Credentials} {d e : Desk} {x : Step α}
  {Q : Prop}

theorem hinges_readLine : Hinges readLine d (∃ line, lineAt d.input 0 = some line) := by
  cases hline : lineAt d.input 0 with
  | none =>
    have hrun : Step.run readLine d =
        (.error .inputNotText, { d with input := (Text.cutLine d.input).2 }) := by
      rw [run_readLine, hline]
    exact ⟨fun _ => ⟨_, _, hrun, rfl⟩, by simp⟩
  | some line =>
    refine ⟨by simp, fun _ trouble e hrun => ?_⟩
    rw [run_readLine, hline] at hrun
    cases hrun

theorem heard_of_hearLogin (h : Step.run hearLogin d = (.ok c, e)) :
    lineAt d.input 0 = some c.username ∧ lineAt d.input 1 = some c.password := by
  obtain ⟨username, d', husername, h⟩ := run_bind_ok h
  obtain ⟨password, d'', hpassword, h⟩ := run_bind_ok h
  cases h
  obtain ⟨hfirst, rfl⟩ := run_readLine_ok husername
  exact ⟨hfirst, (run_readLine_ok hpassword).1⟩

theorem quiet_hearLogin : Quiet hearLogin :=
  quiet_readLine.bind fun _ => quiet_readLine.bind fun _ => quiet_pure _

theorem hinges_hearLogin :
    Hinges hearLogin d (∃ c : Credentials, lineAt d.input 0 = some c.username ∧
      lineAt d.input 1 = some c.password) := by
  refine .bind_of quiet_readLine ?_ fun username e husername _ => ?_
  · rintro ⟨c, hfirst, -⟩
    exact hinges_readLine.proceeds ⟨_, hfirst⟩
  · obtain ⟨hfirst, rfl⟩ := run_readLine_ok husername
    refine .bind_of quiet_readLine ?_ fun password e hpassword _ => ?_
    · rintro ⟨c, -, hsecond⟩
      exact hinges_readLine.proceeds ⟨_, hsecond⟩
    · have hsecond := (run_readLine_ok hpassword).1
      exact ((firm_pure _).hinges e).congr
        (iff_of_true trivial ⟨⟨username, password⟩, hfirst, hsecond⟩)

theorem hinges_login (here : Location) (server : String) :
    Hinges (login here server) d (Admitted d.disk here server d.input 0) := by
  rw [login_eq]
  refine .bind_of (quiet_present here _) (fun _ => hinges_present.proceeds trivial) ?_
  intro found e hrun _
  obtain ⟨hfound, rfl⟩ := Prod.mk.inj (run_present.symm.trans hrun)
  obtain rfl := Except.ok.inj hfound
  split
  · rename_i hleads
    refine .bind_of (quiet_readFile here _ _ _) (fun hadmitted => ?_)
      fun expected e hexpected _ => ?_
    · obtain ⟨expected, hsaid, -⟩ := hadmitted hleads
      exact hinges_readFile.proceeds ⟨expected, hsaid⟩
    · have hsaid := says_of_readFile hexpected
      obtain rfl : e = d := by
        rw [run_readFile_eq] at hexpected
        exact (Prod.mk.inj hexpected).2.symm
      refine .bind_of quiet_hearLogin (fun hadmitted => ?_) fun c e' hc _ => ?_
      · obtain ⟨expected', -, husername, hpassword⟩ := hadmitted hleads
        exact hinges_hearLogin.proceeds ⟨⟨_, _⟩, husername, hpassword⟩
      · obtain ⟨husername, hpassword⟩ := heard_of_hearLogin hc
        split
        · rename_i hsame
          refine ((firm_pure _).hinges e').congr
            (iff_of_true trivial fun _ => ⟨expected, hsaid, ?_⟩)
          exact ⟨hsame.1 ▸ husername, hsame.2 ▸ hpassword⟩
        · rename_i hother
          refine ⟨fun _ => refuses_throw _ e', fun hadmitted => absurd ?_ hother⟩
          obtain ⟨expected', hsaid', husername', hpassword'⟩ := hadmitted hleads
          obtain rfl := hsaid.unique hsaid'
          exact ⟨Option.some.inj (husername.symm.trans husername'),
            Option.some.inj (hpassword.symm.trans hpassword')⟩
  · rename_i hleads
    exact ((firm_pure _).hinges d).congr (iff_of_true trivial fun h => absurd h hleads)

theorem ordinary_readLine : Ordinary readLine := by
  intro d e trouble h
  cases hline : lineAt d.input 0 with
  | none =>
    rw [run_readLine, hline] at h
    cases h
    rfl
  | some line =>
    rw [run_readLine, hline] at h
    cases h

theorem ordinary_login : Ordinary (login here server) := by
  refine ordinary_present.bind fun found => ?_
  split
  · refine ordinary_readFile.bind fun expected => ?_
    refine ordinary_readLine.bind fun username => ordinary_readLine.bind fun password => ?_
    split
    · exact ordinary_pure _
    · exact ordinary_throw rfl
  · exact ordinary_pure _

/-- A step that wants to be confirmed first. -/
theorem hinges_confirmed {y : Step α} (hx : Hinges x { d with input := (Text.cutLine d.input).2 } Q)
    (hy : ∀ e, Refuses y e) :
    Hinges (readLine >>= fun answer => if Text.trim answer = "yes" then x else y) d
      (Confirmed d.input ∧ Q) := by
  refine .bind_of quiet_readLine ?_ fun answer e hanswer _ => ?_
  · rintro ⟨⟨line, hline, -⟩, -⟩
    exact hinges_readLine.proceeds ⟨line, hline⟩
  · obtain ⟨hline, rfl⟩ := run_readLine_ok hanswer
    split
    · rename_i hyes
      exact hx.congr (by simp [Confirmed, hline, hyes])
    · rename_i hno
      refine ⟨fun _ => hy _, ?_⟩
      rintro ⟨⟨line, hline', hyes⟩, -⟩
      obtain rfl := Option.some.inj (hline.symm.trans hline')
      exact absurd hyes hno

theorem halts_confirmed {y : Step α}
    (hx : Halts x { d with input := (Text.cutLine d.input).2 } Q) (hy : Ordinary y) :
    Halts (readLine >>= fun answer => if Text.trim answer = "yes" then x else y) d
      (Confirmed d.input ∧ Q) := by
  intro trouble e h
  rw [run_bind] at h
  split at h
  · rename_i hrun
    cases h
    exact .inl (ordinary_readLine _ _ _ hrun)
  · rename_i answer d' hanswer
    obtain ⟨hline, rfl⟩ := run_readLine_ok hanswer
    split at h
    · rename_i hyes
      exact (hx _ _ h).imp_right fun hQ => ⟨⟨answer, hline, hyes⟩, hQ⟩
    · exact .inl (hy _ _ _ h)

end Entrance

/-! ## Requirements -/

/-- What a command may want to find. `login` counts the lines of the input in front of the user
name, and `intact` wants a target to have the content of a file. `countable` wants a record that has
a next version, which `publishable` needs only if something is staged. -/
inductive Requirement where
  | confirmation
  | login (before : Nat)
  | passphrase (name : String)
  | unused (repo : String)
  | record (repo : String)
  | keys
  | staged (repo : String)
  | content (file : String)
  | intact (repo name file : String)
  | countable (repo : String)
  | publishable (repo : String)
  deriving DecidableEq

/-- What a command finds: its surroundings, its input, the files, and which directories it is told
to work on. -/
structure Setting where
  here : Location
  environment : Dict String
  server : String
  trustDir : String
  input : List UInt8
  disk : Tree

def Requirement.Met (s : Setting) : Requirement → Prop
  | .confirmation => Confirmed s.input
  | .login before => Admitted s.disk s.here s.server s.input before
  | .passphrase name => ∃ value, s.environment.get? name = some value ∧ value ≠ ""
  | .unused repo => s.disk.leads s.here (recordPath s.server repo) = false
  | .record repo =>
    ∃ r, Says s.disk s.here Record.shape Record.ofValue? (recordPath s.server repo) r
  | .keys =>
    s.disk.leads s.here (keysPath s.trustDir) = true →
      ∃ keys, Says s.disk s.here (.listOf LocalKey.shape) (toList? LocalKey.ofValue?)
        (keysPath s.trustDir) keys
  | .staged repo =>
    s.disk.leads s.here (stagedPath s.trustDir repo) = true →
      ∃ staged, Says s.disk s.here (.listOf Staged.shape) (toList? Staged.ofValue?)
        (stagedPath s.trustDir repo) staged
  | .content file => ∃ data, s.disk.readBytes s.here file = .ok data
  | .intact repo name file =>
    ∃ r data, Says s.disk s.here Record.shape Record.ofValue? (recordPath s.server repo) r ∧
      s.disk.readBytes s.here file = .ok data ∧ r.targets.get? name = some (.ofContent data)
  | .countable repo =>
    ∃ r, Says s.disk s.here Record.shape Record.ofValue? (recordPath s.server repo) r ∧
      r.version < Text.maxWord
  | .publishable repo =>
    (s.disk.leads s.here (stagedPath s.trustDir repo) = true →
      Says s.disk s.here (.listOf Staged.shape) (toList? Staged.ofValue?)
        (stagedPath s.trustDir repo) []) ∨
    ∃ r, Says s.disk s.here Record.shape Record.ofValue? (recordPath s.server repo) r ∧
      r.version < Text.maxWord

/-- What a command wants, for every form of a command. -/
def requirements : List String → Option (List Requirement)
  | ["init", repo] => some [
    .login 0, .passphrase "NOTARY_ROOT_PASSPHRASE", .passphrase "NOTARY_TARGETS_PASSPHRASE",
    .passphrase "NOTARY_SNAPSHOT_PASSPHRASE", .unused repo, .keys]
  | ["add", repo, _, file] => some [.content file, .staged repo]
  | ["publish", repo] => some [.login 0, .record repo, .staged repo, .publishable repo]
  | ["list", repo] => some [.login 0, .record repo]
  | ["verify", repo, name, "-i", file, "-q"] => some [.intact repo name file]
  | ["key", "list"] => some [.keys]
  | "key" :: "rotate" :: repo :: role :: _ =>
    if role = "root" then some [
      .confirmation, .login 1, .record repo, .keys, .passphrase "NOTARY_ROOT_PASSPHRASE",
      .countable repo]
    else some [.login 0, .record repo, .keys, .countable repo]
  | _ => none

/-- The words are a command, and it finds everything that it wants. -/
def Setting.Fits (s : Setting) (words : List String) : Prop :=
  ∃ wanted, requirements words = some wanted ∧ ∀ requirement ∈ wanted, requirement.Met s

/-- The office in which a command finds a setting. -/
def Setting.office (s : Setting) (keyName : Nat → String) : Office :=
  ⟨s.here, s.environment, keyName⟩

section Commands

variable {s : Setting} {keyName : Nat → String} {repo name file role : String}
  {flags words : List String} {d : Desk}

theorem hinges_passphrase (name : String) :
    Hinges (requirePassphrase (s.office keyName) name) d ((Requirement.passphrase name).Met s) :=
  hinges_requirePassphrase

theorem hinges_record (hd : d.disk = s.disk) :
    Hinges (loadRecord s.here s.server repo) d ((Requirement.record repo).Met s) := by
  rw [Requirement.Met, ← hd]
  exact hinges_loadRecord

theorem hinges_keys (hd : d.disk = s.disk) :
    Hinges (loadKeys s.here s.trustDir) d (Requirement.keys.Met s) := by
  rw [Requirement.Met, ← hd]
  exact hinges_readList

theorem hinges_staged (hd : d.disk = s.disk) :
    Hinges (loadStaged s.here s.trustDir repo) d ((Requirement.staged repo).Met s) := by
  rw [Requirement.Met, ← hd]
  exact hinges_readList

theorem hinges_content (hd : d.disk = s.disk) :
    Hinges (readBytes s.here file) d ((Requirement.content file).Met s) := by
  rw [Requirement.Met, ← hd]
  exact hinges_readBytes

theorem hinges_countOn {r : Record} : Hinges (countOn r) d (r.version < Text.maxWord) := by
  unfold countOn
  split
  · rename_i hversion
    exact ((firm_pure _).hinges d).congr (by simp [hversion])
  · rename_i hversion
    exact ⟨fun _ => refuses_throw _ d, fun h => absurd h hversion⟩

/-- Whether a record that was found can be counted on. -/
theorem countable_iff {r : Record}
    (hr : Says s.disk s.here Record.shape Record.ofValue? (recordPath s.server repo) r) :
    r.version < Text.maxWord ↔ (Requirement.countable repo).Met s := by
  constructor
  · exact fun hversion => ⟨r, hr, hversion⟩
  · rintro ⟨r', hr', hversion⟩
    rwa [hr.unique hr']

/-- If nothing is staged, there is nothing to count. -/
theorem publishable_iff {r : Record} {staged : List Staged}
    (hr : Says s.disk s.here Record.shape Record.ofValue? (recordPath s.server repo) r)
    (hthere : s.disk.leads s.here (stagedPath s.trustDir repo) = true →
      Says s.disk s.here (.listOf Staged.shape) (toList? Staged.ofValue?)
        (stagedPath s.trustDir repo) staged)
    (hmissing : s.disk.leads s.here (stagedPath s.trustDir repo) = false → staged = []) :
    staged = [] ∨ r.version < Text.maxWord ↔ (Requirement.publishable repo).Met s := by
  constructor
  · rintro (rfl | hversion)
    · exact .inl hthere
    · exact .inr ⟨r, hr, hversion⟩
  · rintro (hnone | ⟨r', hr', hversion⟩)
    · cases hleads : s.disk.leads s.here (stagedPath s.trustDir repo) with
      | false => exact .inl (hmissing hleads)
      | true => exact .inl ((hthere hleads).unique (hnone hleads))
    · exact .inr (hr.unique hr' ▸ hversion)

theorem hinges_init (hd : d.disk = s.disk) :
    Hinges (init (s.office keyName) s.server s.trustDir repo) d
      ((Requirement.passphrase "NOTARY_ROOT_PASSPHRASE").Met s ∧
        (Requirement.passphrase "NOTARY_TARGETS_PASSPHRASE").Met s ∧
        (Requirement.passphrase "NOTARY_SNAPSHOT_PASSPHRASE").Met s ∧
        (Requirement.unused repo).Met s ∧ Requirement.keys.Met s) := by
  refine .bind (quiet_requirePassphrase _ _) (hinges_passphrase _) fun _ d₁ _ h₁ => ?_
  refine .bind (quiet_requirePassphrase _ _) (hinges_passphrase _) fun _ d₂ _ h₂ => ?_
  refine .bind (quiet_requirePassphrase _ _) (hinges_passphrase _) fun _ d₃ _ h₃ => ?_
  have hd₃ : d₃.disk = s.disk := h₃.trans (h₂.trans (h₁.trans hd))
  refine .bind_of (quiet_present _ _) (fun _ => hinges_present.proceeds trivial)
    fun found e hrun he => ?_
  obtain ⟨hfound, -⟩ := Prod.mk.inj (run_present.symm.trans hrun)
  obtain rfl := Except.ok.inj hfound
  rw [hd₃]
  dsimp only
  split
  · rename_i hleads
    refine ⟨fun _ => (refuses_throw _ e).bind, fun hmet => ?_⟩
    exact absurd (hmet.1.symm.trans hleads) (by decide)
  · rename_i hleads
    have hunused : (Requirement.unused repo).Met s := Bool.eq_false_iff.2 hleads
    refine Hinges.congr (.firm (hinges_keys (he.trans hd₃)) fun keys => ?_) (by simp [hunused])
    exact (firm_makeKeys _ repo _ _ _).bind fun made => firm_found _ _ _ repo _ _ _

theorem hinges_add (hd : d.disk = s.disk) :
    Hinges (add (s.office keyName) s.trustDir repo name file) d
      ((Requirement.content file).Met s ∧ (Requirement.staged repo).Met s) := by
  refine .bind (quiet_look _) (hinges_content hd) fun data e _ he => ?_
  exact (hinges_staged (he.trans hd)).firm fun staged => firm_stage _ _ repo _ _

theorem hinges_publish (hd : d.disk = s.disk) :
    Hinges (publish (s.office keyName) s.server s.trustDir repo) d
      ((Requirement.record repo).Met s ∧ (Requirement.staged repo).Met s ∧
        (Requirement.publishable repo).Met s) := by
  refine .bind (quiet_loadRecord _ _ _) (hinges_record hd) fun r e hr he => ?_
  refine .bind (quiet_loadStaged _ _ _) (hinges_staged (he.trans hd)) fun staged e' hstaged _ => ?_
  have hsaid := hd ▸ says_of_loadRecord hr
  obtain ⟨hthere, hmissing⟩ := says_of_readList hstaged
  rw [he, hd] at hthere hmissing
  refine Hinges.congr ?_ (publishable_iff hsaid hthere hmissing)
  split
  · rename_i hempty
    refine ((firm_idle _ _ repo _ _).hinges e').congr ?_
    exact iff_of_true trivial (.inl (List.isEmpty_iff.1 hempty))
  · rename_i hsome
    have hne : staged ≠ [] := fun h => hsome (List.isEmpty_iff.2 h)
    exact (hinges_countOn.firm fun _ => firm_release _ _ _ repo _ _).congr (by simp [hne])

theorem hinges_list (hd : d.disk = s.disk) :
    Hinges (list (s.office keyName) s.server s.trustDir repo) d
      ((Requirement.record repo).Met s) :=
  (hinges_record hd).firm fun r => firm_show _ _ _ repo r

theorem hinges_verify (hd : d.disk = s.disk) :
    Hinges (verify (s.office keyName) s.server repo name file) d
      ((Requirement.intact repo name file).Met s) := by
  refine .bind_of (quiet_loadRecord _ _ _) ?_ fun r e hr he => ?_
  · rintro ⟨r, data, hsaid, -, -⟩
    exact (hinges_record hd).proceeds ⟨r, hsaid⟩
  have hsaid := says_of_loadRecord hr
  rw [hd] at hsaid
  split
  · rename_i hnone
    refine ⟨fun _ => refuses_throw _ e, ?_⟩
    rintro ⟨r', data, hsaid', -, htarget⟩
    obtain rfl := hsaid.unique hsaid'
    rw [hnone] at htarget
    cases htarget
  · rename_i target htarget
    refine .bind_of (quiet_look _) ?_ fun data e' hdata _ => ?_
    · rintro ⟨r', data, -, hdata, -⟩
      exact (hinges_content (he.trans hd)).proceeds ⟨data, hdata⟩
    have hread : s.disk.readBytes s.here file = .ok data := he.trans hd ▸ readBytes_of_run hdata
    split
    · rename_i hsame
      refine ((firm_pure _).hinges e').congr (iff_of_true trivial ⟨r, data, hsaid, hread, ?_⟩)
      rw [htarget, hsame]
    · rename_i hother
      refine ⟨fun _ => refuses_throw _ e', ?_⟩
      rintro ⟨r', data', hsaid', hread', htarget'⟩
      obtain rfl := hsaid.unique hsaid'
      obtain rfl := Except.ok.inj (hread.symm.trans hread')
      exact absurd (Option.some.inj (htarget.symm.trans htarget')).symm hother

theorem hinges_listKeys (hd : d.disk = s.disk) :
    Hinges (listKeys (s.office keyName) s.trustDir) d (Requirement.keys.Met s) :=
  (hinges_keys hd).firm fun _ => (firm_print _).bind fun _ => firm_print _

theorem hinges_rotateRoot (hd : d.disk = s.disk) :
    Hinges (rotateRoot (s.office keyName) s.server s.trustDir repo) d
      ((Requirement.record repo).Met s ∧ Requirement.keys.Met s ∧
        (Requirement.passphrase "NOTARY_ROOT_PASSPHRASE").Met s ∧
        (Requirement.countable repo).Met s) := by
  refine .bind (quiet_loadRecord _ _ _) (hinges_record hd) fun r d₁ hr h₁ => ?_
  refine .bind (quiet_loadKeys _ _) (hinges_keys (h₁.trans hd)) fun keys d₂ _ h₂ => ?_
  refine .bind (quiet_requirePassphrase _ _) (hinges_passphrase _) fun _ d₃ _ _ => ?_
  exact (hinges_countOn.firm fun _ => firm_replace _ _ _ repo _ _).congr
    (countable_iff (hd ▸ says_of_loadRecord hr))

theorem hinges_rotateOther (hd : d.disk = s.disk) (managed : Bool) :
    Hinges (rotateOther (s.office keyName) s.server s.trustDir repo role managed) d
      ((Requirement.record repo).Met s ∧ Requirement.keys.Met s ∧
        (Requirement.countable repo).Met s) := by
  refine .bind (quiet_loadRecord _ _ _) (hinges_record hd) fun r d₁ hr h₁ => ?_
  refine .bind (quiet_loadKeys _ _) (hinges_keys (h₁.trans hd)) fun keys d₂ _ h₂ => ?_
  exact (hinges_countOn.firm fun _ => firm_replace _ _ _ repo _ _).congr
    (countable_iff (hd ▸ says_of_loadRecord hr))

/-- A login, when some lines of the input have been read. -/
theorem hinges_admitted (before : Nat) (hd : d.disk = s.disk)
    (hinput : ∀ n, lineAt d.input n = lineAt s.input (before + n)) :
    Hinges (login s.here s.server) d ((Requirement.login before).Met s) := by
  have hadmitted := hinges_login (d := d) s.here s.server
  simp only [Admitted, Known, hd, hinput] at hadmitted
  exact hadmitted

/-- A login in front of a command. -/
theorem hinges_logged {x : Step Unit} {Q : Prop} (before : Nat) (hd : d.disk = s.disk)
    (hinput : ∀ n, lineAt d.input n = lineAt s.input (before + n))
    (hx : ∀ e : Desk, e.disk = s.disk → Hinges x e Q) :
    Hinges (do login s.here s.server; x) d ((Requirement.login before).Met s ∧ Q) :=
  .bind (quiet_login _ _) (hinges_admitted before hd hinput) fun _ e _ he => hx e (he.trans hd)

theorem fits_iff (s : Setting) (words : List String) {wanted : List Requirement}
    (h : requirements words = some wanted) :
    s.Fits words ↔ ∀ requirement ∈ wanted, requirement.Met s := by
  simp [Setting.Fits, h]

theorem requirements_rotate : requirements ("key" :: "rotate" :: repo :: role :: flags) =
    if role = "root" then some [
      .confirmation, .login 1, .record repo, .keys, .passphrase "NOTARY_ROOT_PASSPHRASE",
      .countable repo]
    else some [.login 0, .record repo, .keys, .countable repo] := rfl

theorem hinges_rotate (hd : d.disk = s.disk) (hinput : d.input = s.input) :
    Hinges (rotate (s.office keyName) s.server s.trustDir repo role flags) d
      (s.Fits ("key" :: "rotate" :: repo :: role :: flags)) := by
  unfold rotate
  dsimp only
  split
  · rename_i hroot
    refine Hinges.congr (hinges_confirmed (hinges_logged 1 hd (fun n => ?_) fun e he =>
      (hinges_rotateRoot he).firm fun _ => firm_print _) fun e => (refuses_throw _ e).bind) ?_
    · rw [hinput, Nat.add_comm]
      rfl
    · rw [fits_iff s _ (requirements_rotate.trans (if_pos hroot)), hinput]
      simp [Requirement.Met]
  · rename_i hother
    refine Hinges.congr (hinges_logged 0 hd (fun n => ?_) fun e he =>
      (hinges_rotateOther he _).firm fun _ => firm_print _) ?_
    · rw [hinput, Nat.zero_add]
    · rw [fits_iff s _ (requirements_rotate.trans (if_neg hother))]
      simp

/-! ### The last version -/

/-- Whether it is about a next version. -/
def Requirement.counts : Requirement → Bool
  | .countable _ | .publishable _ => true
  | _ => false

/-- The words are a command, and it finds everything that it wants, but perhaps a next version. -/
def Setting.Spent (s : Setting) (words : List String) : Prop :=
  ∃ wanted, requirements words = some wanted ∧
    ∀ requirement ∈ wanted, requirement.counts = false → requirement.Met s

theorem spent_iff (s : Setting) (words : List String) {wanted : List Requirement}
    (h : requirements words = some wanted) :
    s.Spent words ↔
      ∀ requirement ∈ wanted, requirement.counts = false → requirement.Met s := by
  simp [Setting.Spent, h]

section Halting

variable {o : Office} {server trustDir : String} {Q : Prop}

theorem ordinary_init : Ordinary (init o server trustDir repo) := by
  refine ordinary_requirePassphrase.bind fun _ => ordinary_requirePassphrase.bind fun _ => ?_
  refine ordinary_requirePassphrase.bind fun _ => ordinary_present.bind fun found => ?_
  dsimp only
  split
  · refine (ordinary_throw rfl).bind fun _ => ordinary_readList.bind fun keys => Firm.ordinary ?_
    exact (firm_makeKeys o repo _ _ _).bind fun made => firm_found o server trustDir repo _ _ _
  · refine ordinary_readList.bind fun keys => Firm.ordinary ?_
    exact (firm_makeKeys o repo _ _ _).bind fun made => firm_found o server trustDir repo _ _ _

theorem ordinary_add : Ordinary (add o trustDir repo name file) :=
  ordinary_readBytes.bind fun _ => ordinary_readList.bind fun _ =>
    (firm_stage o trustDir repo _ _).ordinary

theorem ordinary_list : Ordinary (list o server trustDir repo) :=
  ordinary_loadRecord.bind fun r => (firm_show o server trustDir repo r).ordinary

theorem ordinary_verify : Ordinary (verify o server repo name file) := by
  refine ordinary_loadRecord.bind fun r => ?_
  split
  · exact ordinary_throw rfl
  · refine ordinary_readBytes.bind fun data => ?_
    split
    · exact ordinary_pure _
    · exact ordinary_throw rfl

theorem ordinary_listKeys : Ordinary (listKeys o trustDir) :=
  ordinary_readList.bind fun _ => ((firm_print _).bind fun _ => firm_print _).ordinary

theorem halts_publish (hd : d.disk = s.disk) :
    Halts (publish (s.office keyName) s.server s.trustDir repo) d
      ((Requirement.record repo).Met s ∧ (Requirement.staged repo).Met s) :=
  .bind (quiet_loadRecord _ _ _) ordinary_loadRecord (hinges_record hd) fun _ _ _ he =>
    (hinges_staged (he.trans hd)).halts (quiet_loadStaged _ _ _) ordinary_readList

theorem halts_rotateRoot (hd : d.disk = s.disk) :
    Halts (rotateRoot (s.office keyName) s.server s.trustDir repo) d
      ((Requirement.record repo).Met s ∧ Requirement.keys.Met s ∧
        (Requirement.passphrase "NOTARY_ROOT_PASSPHRASE").Met s) :=
  .bind (quiet_loadRecord _ _ _) ordinary_loadRecord (hinges_record hd) fun _ _ _ h₁ =>
    .bind (quiet_loadKeys _ _) ordinary_readList (hinges_keys (h₁.trans hd)) fun _ _ _ _ =>
      (hinges_passphrase _).halts (quiet_requirePassphrase _ _) ordinary_requirePassphrase

theorem halts_rotateOther (hd : d.disk = s.disk) (managed : Bool) :
    Halts (rotateOther (s.office keyName) s.server s.trustDir repo role managed) d
      ((Requirement.record repo).Met s ∧ Requirement.keys.Met s) :=
  .bind (quiet_loadRecord _ _ _) ordinary_loadRecord (hinges_record hd) fun _ _ _ h₁ =>
    (hinges_keys (h₁.trans hd)).halts (quiet_loadKeys _ _) ordinary_readList

theorem halts_logged {x : Step Unit} (before : Nat) (hd : d.disk = s.disk)
    (hinput : ∀ n, lineAt d.input n = lineAt s.input (before + n))
    (hx : ∀ e : Desk, e.disk = s.disk → Halts x e Q) :
    Halts (do login s.here s.server; x) d ((Requirement.login before).Met s ∧ Q) :=
  .bind (quiet_login _ _) ordinary_login (hinges_admitted before hd hinput) fun _ e _ he =>
    hx e (he.trans hd)

theorem halts_rotate (hd : d.disk = s.disk) (hinput : d.input = s.input) :
    Halts (rotate (s.office keyName) s.server s.trustDir repo role flags) d
      (s.Spent ("key" :: "rotate" :: repo :: role :: flags)) := by
  unfold rotate
  dsimp only
  split
  · rename_i hroot
    refine Halts.mono (halts_confirmed (halts_logged 1 hd (fun n => ?_) fun e he =>
      (halts_rotateRoot he).ordinary fun _ => (firm_print _).ordinary)
        ((ordinary_throw rfl).bind fun _ => (firm_print _).ordinary)) ?_
    · rw [hinput, Nat.add_comm]
      rfl
    · rw [spent_iff s _ (requirements_rotate.trans (if_pos hroot)), hinput]
      simp [Requirement.Met, Requirement.counts]
  · rename_i hother
    refine Halts.mono (halts_logged 0 hd (fun n => ?_) fun e he =>
      (halts_rotateOther he _).ordinary fun _ => (firm_print _).ordinary) ?_
    · rw [hinput, Nat.zero_add]
    · rw [spent_iff s _ (requirements_rotate.trans (if_neg hother))]
      simp [Requirement.counts]

/-- A command that stops in the middle has found everything else. -/
theorem halts_command (hd : d.disk = s.disk) (hinput : d.input = s.input) :
    Halts (command (s.office keyName) s.server s.trustDir words) d (s.Spent words) := by
  unfold command
  split
  · exact (ordinary_login.bind fun _ => ordinary_init).halts d _
  · exact ordinary_add.halts d _
  · refine (halts_logged 0 hd (by simp [hinput]) fun e he => halts_publish he).mono ?_
    simp [spent_iff s ["publish", _] rfl, Requirement.counts]
  · exact (ordinary_login.bind fun _ => ordinary_list).halts d _
  · exact ordinary_verify.halts d _
  · exact ordinary_listKeys.halts d _
  · exact halts_rotate hd hinput
  · exact (ordinary_throw rfl).halts d _

end Halting

/-- The requirements of a command decide whether it is refused. -/
theorem hinges_command (hd : d.disk = s.disk) (hinput : d.input = s.input) :
    Hinges (command (s.office keyName) s.server s.trustDir words) d (s.Fits words) := by
  have hlines : ∀ n, lineAt d.input n = lineAt s.input (0 + n) := by simp [hinput]
  unfold command
  split
  · refine (hinges_logged 0 hd hlines fun e he => hinges_init he).congr ?_
    simp [fits_iff s ["init", _] rfl]
  · exact (hinges_add hd).congr (by simp [fits_iff s ["add", _, _, _] rfl])
  · refine (hinges_logged 0 hd hlines fun e he => hinges_publish he).congr ?_
    simp [fits_iff s ["publish", _] rfl]
  · refine (hinges_logged 0 hd hlines fun e he => hinges_list he).congr ?_
    simp [fits_iff s ["list", _] rfl]
  · exact (hinges_verify hd).congr
      (by simp [fits_iff s ["verify", _, _, "-i", _, "-q"] rfl])
  · exact (hinges_listKeys hd).congr (by simp [fits_iff s ["key", "list"] rfl])
  · exact hinges_rotate hd hinput
  · have hnone : requirements words = none := by
      unfold requirements
      split <;> simp_all
    refine ⟨fun _ => refuses_throw _ d, ?_⟩
    rintro ⟨wanted, hwanted, -⟩
    rw [hnone] at hwanted
    cases hwanted

end Commands

/-! ## Runs -/

/-- The directory that flags choose as the server: the one of an address, or the storage that a
configuration names. -/
inductive Chosen (t : Tree) (here : Location) (f : Flags) (server : String) : Prop where
  | named {url : String} : f.server = some url → f.embedded = false →
      serverDir? url = some server → Chosen t here f server
  | stored {config text : String} {v : Json.Value} : f.server = none → f.embedded = true →
      f.config = some config → t.readText here config = .ok text →
      Json.read .anything text = .ok v → storage? v = some server → Chosen t here f server

/-- What a command finds that a request asks for. -/
def settingOf (request : Request) (t : Tree) (server trustDir : String) : Setting :=
  ⟨request.here, request.environment, server, trustDir, request.stdin.data.toList, t⟩

/-- A request for a command that names a trust directory and a server, and that finds everything it
wants there. -/
def Granted (request : Request) (t : Tree) : Prop :=
  ∃ trustDir server, (Flags.read request.args).1.trustDir = some trustDir ∧
    Chosen t request.here (Flags.read request.args).1 server ∧
    (settingOf request t server trustDir).Fits (Flags.read request.args).2

/-- A request for one of the commands that show how the program is connected. -/
def Probes (request : Request) : Prop := ∃ words, (Flags.read request.args).2 = "debug" :: words

/-- A request for a command that finds everything it wants, but perhaps a next version. -/
def Exhausting (request : Request) (t : Tree) : Prop :=
  ∃ trustDir server, (Flags.read request.args).1.trustDir = some trustDir ∧
    Chosen t request.here (Flags.read request.args).1 server ∧
    (settingOf request t server trustDir).Spent (Flags.read request.args).2

/-- A run that has failed and left all files as they were. -/
structure Refused (t : Tree) (ended : Reply × Nat × Tree) : Prop where
  exit : ended.1.exit = some 1
  disk : ended.2.2 = t

/-- A run that has stopped in the middle and left all files as they were. -/
structure Exhausted (t : Tree) (ended : Reply × Nat × Tree) : Prop where
  exit : ended.1.exit = some 101
  disk : ended.2.2 = t

section Runs

variable {keyName : Nat → String} {request : Request} {made : Nat} {t : Tree} {here : Location}
  {f : Flags} {server trustDir : String} {d e : Desk}

theorem chosen_of_openServer (h : Step.run (openServer here f) d = (.ok server, e)) :
    Chosen d.disk here f server ∧ e = d := by
  unfold openServer at h
  split at h
  · rename_i url hserver hembedded
    split at h
    · cases h
    · rename_i dir hdir
      cases h
      exact ⟨.named hserver hembedded hdir, rfl⟩
  · rename_i hserver hembedded
    split at h
    · cases h
    · rename_i config hconfig
      obtain ⟨text, d', htext, h⟩ := run_bind_ok h
      simp only [Step.run, readText, look, Prod.mk.injEq] at htext
      obtain ⟨htext, rfl⟩ := htext
      split at htext
      · cases htext
      · rename_i found hfound
        obtain rfl := Except.ok.inj htext
        split at h
        · cases h
        · rename_i v hv
          split at h
          · cases h
          · rename_i dir hdir
            cases h
            exact ⟨.stored hserver hembedded hconfig hfound hv hdir, rfl⟩
  · cases h

theorem hinges_openServer :
    Hinges (openServer here f) d (∃ server, Chosen d.disk here f server) := by
  constructor
  · intro hnot
    cases hrun : Step.run (openServer here f) d with
    | mk result e =>
      cases result with
      | ok server => exact absurd ⟨server, (chosen_of_openServer hrun).1⟩ hnot
      | error trouble =>
        exact ⟨trouble, e, hrun, ((quiet_openServer here f).at hrun (.refl d)).disk⟩
  · rintro ⟨server, hchosen⟩ trouble e hrun
    cases hchosen with
    | named hserver hembedded hdir =>
      simp only [openServer, hserver, hembedded, hdir] at hrun
      cases hrun
    | @stored config text v hserver hembedded hconfig htext hv hdir =>
      have hread : Step.run (readText here config) d = (.ok text, d) := by
        simp only [Step.run, readText, look, htext]
      simp only [openServer, hserver, hembedded, hconfig] at hrun
      rw [run_bind, hread] at hrun
      simp only [hv, hdir] at hrun
      cases hrun

theorem Chosen.unique {other : String} (h : Chosen t here f server) (h' : Chosen t here f other) :
    server = other := by
  cases h <;> cases h' <;> simp_all

/-- Whether a request is granted decides whether it is refused. -/
theorem hinges_answer (hprobes : ¬Probes request) :
    Hinges (answer (officeOf keyName request) request.args) (deskOf request made t)
      (Granted request t) := by
  unfold answer
  split
  · rename_i f words hread
    exact absurd ⟨words, congrArg Prod.snd hread⟩ hprobes
  · rename_i f words _ hread
    have hf : (Flags.read request.args).1 = f := congrArg Prod.fst hread
    have hwords : (Flags.read request.args).2 = words := congrArg Prod.snd hread
    split
    · rename_i hnone
      refine ⟨fun _ => refuses_throw _ _, ?_⟩
      rintro ⟨trustDir, server, hsome, -⟩
      rw [hf, hnone] at hsome
      cases hsome
    · rename_i trustDir htrustDir
      refine .bind_of (quiet_openServer _ _) ?_ fun server e hopen _ => ?_
      · rintro ⟨_, server, -, hchosen, -⟩
        exact hinges_openServer.proceeds ⟨server, hf ▸ hchosen⟩
      · obtain ⟨hchosen, rfl⟩ := chosen_of_openServer hopen
        have hcommand : Hinges (command (officeOf keyName request) server trustDir words)
            (deskOf request made t) ((settingOf request t server trustDir).Fits words) :=
          hinges_command (s := settingOf request t server trustDir) rfl rfl
        refine (hcommand.firm fun _ => firm_pure _).congr ⟨fun hfits => ?_, ?_⟩
        · exact ⟨trustDir, server, hf ▸ htrustDir, hf ▸ hchosen, hwords ▸ hfits⟩
        · rintro ⟨trustDir', server', htrustDir', hchosen', hfits⟩
          rw [hf] at htrustDir' hchosen'
          obtain rfl := Option.some.inj (htrustDir.symm.trans htrustDir')
          obtain rfl := hchosen.unique hchosen'
          exact hwords ▸ hfits

theorem run_of_code {code : Nat}
    (h : Step.run (answer (officeOf keyName request) request.args) (deskOf request made t) =
      (.ok code, e)) :
    (run keyName request made t).1.exit = some (code : Int) ∧
      (run keyName request made t).2.2 = e.disk := by
  simp only [officeOf, deskOf] at h
  simp only [run, h, and_self]

theorem run_of_trouble {trouble : Trouble}
    (h : Step.run (answer (officeOf keyName request) request.args) (deskOf request made t) =
      (.error trouble, e)) :
    (run keyName request made t).1.exit = some trouble.exit ∧
      (run keyName request made t).2.2 = e.disk := by
  simp only [officeOf, deskOf] at h
  simp only [run, h, and_self]

theorem ordinary_openServer : Ordinary (openServer here f) := by
  unfold openServer
  split
  · split
    · exact ordinary_throw rfl
    · exact ordinary_pure _
  · split
    · exact ordinary_throw rfl
    · refine ordinary_readText.bind fun text => ?_
      split
      · exact ordinary_throw rfl
      · split
        · exact ordinary_throw rfl
        · exact ordinary_pure _
  · exact ordinary_throw rfl

theorem halts_answer (hprobes : ¬Probes request) :
    Halts (answer (officeOf keyName request) request.args) (deskOf request made t)
      (Exhausting request t) := by
  unfold answer
  split
  · rename_i f words hread
    exact absurd ⟨words, congrArg Prod.snd hread⟩ hprobes
  · rename_i f words _ hread
    have hf : (Flags.read request.args).1 = f := congrArg Prod.fst hread
    have hwords : (Flags.read request.args).2 = words := congrArg Prod.snd hread
    split
    · exact (ordinary_throw rfl).halts _ _
    · rename_i trustDir htrustDir
      refine (Halts.bind (quiet_openServer _ _) ordinary_openServer hinges_openServer
        fun server e hopen _ => ?_).mono And.right
      obtain ⟨hchosen, rfl⟩ := chosen_of_openServer hopen
      refine Halts.ordinary ?_ fun _ => ordinary_pure _
      refine (halts_command (s := settingOf request t server trustDir) rfl rfl).mono fun hspent => ?_
      exact ⟨trustDir, server, hf ▸ htrustDir, hf ▸ hchosen, hwords ▸ hspent⟩

/-- A run that is refused leaves the files as they were, and ends with an error unless it lacks
nothing but a next version. -/
theorem refused_or_exhausted (hprobes : ¬Probes request) (hnot : ¬Granted request t) :
    Refused t (run keyName request made t) ∨
      Exhausting request t ∧ Exhausted t (run keyName request made t) := by
  obtain ⟨trouble, e, hrun, he⟩ := (hinges_answer hprobes).refuses hnot
  obtain ⟨hexit, hdisk⟩ := run_of_trouble hrun
  by_cases hone : trouble.exit = 1
  · exact .inl ⟨hexit.trans (congrArg some hone), hdisk.trans he⟩
  · refine .inr ⟨(halts_answer hprobes trouble e hrun).resolve_left hone, ?_, hdisk.trans he⟩
    cases trouble with
    | exhausted => exact hexit
    | _ => exact absurd rfl hone

theorem Granted.exhausting (h : Granted request t) : Exhausting request t := by
  obtain ⟨trustDir, server, hdir, hchosen, wanted, hwanted, hmet⟩ := h
  exact ⟨trustDir, server, hdir, hchosen, wanted, hwanted, fun _ hmem _ => hmet _ hmem⟩

theorem refused_of_not_exhausting (hprobes : ¬Probes request) (hnot : ¬Exhausting request t) :
    Refused t (run keyName request made t) :=
  (refused_or_exhausted hprobes fun h => hnot h.exhausting).resolve_right fun h => hnot h.1

/-- Only plumbing ends well with another code than zero. -/
theorem code_of_answer {code : Nat} (hprobes : ¬Probes request)
    (h : Step.run (answer (officeOf keyName request) request.args) (deskOf request made t) =
      (.ok code, e)) : code = 0 := by
  unfold answer at h
  split at h
  · rename_i f words hread
    exact absurd ⟨words, congrArg Prod.snd hread⟩ hprobes
  · split at h
    · cases h
    · obtain ⟨server, d₁, _, h⟩ := run_bind_ok h
      obtain ⟨_, d₂, _, h⟩ := run_bind_ok h
      cases h
      rfl

/-- A run that fails for another reason than writing leaves the files as they were. -/
theorem disk_of_failure (hunhindered : Unhindered keyName request made t)
    (hexit : (run keyName request made t).1.exit ≠ some 0) :
    (run keyName request made t).2.2 = t := by
  cases hrun : Step.run (answer (officeOf keyName request) request.args)
      (deskOf request made t) with
  | mk result e =>
    cases result with
    | error trouble =>
      rw [(run_of_trouble hrun).2]
      exact (careful_answer _ _ _ _ _ hrun (hunhindered _ _ hrun)).disk
    | ok code =>
      obtain ⟨hcode, hdisk⟩ := run_of_code hrun
      obtain ⟨words, hwords⟩ : Probes request := by
        refine Classical.byContradiction fun hprobes => hexit ?_
        rw [hcode, code_of_answer hprobes hrun]
        rfl
      have hread : Flags.read request.args = ((Flags.read request.args).1, "debug" :: words) :=
        Prod.ext rfl hwords
      rw [answer, hread] at hrun
      rw [hdisk]
      exact ((quiet_plumbing _ _ _).at hrun (.refl _)).disk

/-- A failure leaves nothing behind. If no change of files is refused, a run that ends with another
code than zero has changed none. And whatever is missing or in the way is noticed first: a command
that does not find all it wants fails before it changes anything, and one that does can fail only by
writing. If nothing is missing but a next version, the run may stop in the middle, but it has changed
nothing either. -/
theorem run_leaves_nothing (keyName : Nat → String) (request : Request) (made : Nat) (t : Tree) :
    (Unhindered keyName request made t → (run keyName request made t).1.exit ≠ some 0 →
        (run keyName request made t).2.2 = t) ∧
      (¬Probes request →
        (¬Granted request t → Refused t (run keyName request made t) ∨
          Exhausting request t ∧ Exhausted t (run keyName request made t)) ∧
          (Granted request t → Unhindered keyName request made t →
            (run keyName request made t).1.exit = some 0)) := by
  refine ⟨disk_of_failure, fun hprobes => ⟨fun hnot => ?_, fun hgranted hunhindered => ?_⟩⟩
  · exact refused_or_exhausted hprobes hnot
  · cases hrun : Step.run (answer (officeOf keyName request) request.args)
        (deskOf request made t) with
    | mk result e =>
      cases result with
      | ok code =>
        rw [(run_of_code hrun).1, code_of_answer hprobes hrun]
        rfl
      | error trouble =>
        have hwriting := (hinges_answer hprobes).proceeds hgranted trouble e hrun
        rw [hunhindered trouble e hrun] at hwriting
        cases hwriting

end Runs

/-- The tree of the demonstration, with a record that breaks off. -/
def tornTree : Tree := demoTree.put ["srv", "demo.json"] (.file "\x7b".toUTF8 false)

theorem chosen_demo {t : Tree} {words : List String}
    (hread : Flags.read (demoRequest words "").args = (demoRunner.flags "/home", words)) :
    Chosen t [] (Flags.read (demoRequest words "").args).1 "/srv" := by
  rw [hread]
  exact .named rfl rfl (by decide)

theorem not_probes {request : Request} {f : Flags} {word : String} {words : List String}
    (hread : Flags.read request.args = (f, word :: words)) (hword : word ≠ "debug") :
    ¬Probes request := by
  rintro ⟨words', hwords⟩
  rw [hread] at hwords
  exact hword (List.cons.inj hwords).1

/-- Nothing can be published over a record that cannot be read, while the keys can be listed. -/
theorem run_leaves_nothing_torn :
    let publication := demoRequest ["publish", "demo"] ""
    let inquiry := demoRequest ["key", "list"] ""
    ¬Granted publication tornTree ∧ Refused tornTree (run Main.keyName publication 0 tornTree) ∧
      Granted inquiry tornTree ∧ Unhindered Main.keyName inquiry 0 tornTree ∧
      (run Main.keyName inquiry 0 tornTree).1.exit = some 0 := by
  intro publication inquiry
  have hread : Flags.read publication.args = (demoRunner.flags "/home", ["publish", "demo"]) := by
    decide
  have hasked : Flags.read inquiry.args = (demoRunner.flags "/home", ["key", "list"]) := by decide
  have hpublication : ¬Probes publication := not_probes hread (by decide)
  have hinquiry : ¬Probes inquiry := not_probes hasked (by decide)
  have htorn : ¬Exhausting publication tornTree := by
    rintro ⟨trustDir, server, -, hchosen, wanted, hwanted, hmet⟩
    obtain rfl : server = "/srv" := hchosen.unique (chosen_demo hread)
    rw [hread] at hwanted
    obtain rfl := Option.some.inj hwanted
    obtain ⟨r, text, htext, hsaid⟩ := hmet (.record "demo") (by simp) rfl
    have htold : tornTree.readText [] (recordPath "/srv" "demo") = .ok "\x7b" := by rfl
    obtain rfl := Except.ok.inj (htold.symm.trans htext)
    have hopen : (readAs Record.shape Record.ofValue? "\x7b").toOption = none := by decide +kernel
    rw [hsaid] at hopen
    cases hopen
  have hnot : ¬Granted publication tornTree := fun h => htorn h.exhausting
  have hgranted : Granted inquiry tornTree := by
    refine ⟨"/home", "/srv", by rw [hasked]; rfl, chosen_demo hasked, ?_⟩
    rw [hasked, fits_iff _ _ rfl]
    intro requirement hmem
    obtain rfl := List.mem_singleton.1 hmem
    intro hleads
    have habsent : tornTree.leads [] (keysPath "/home") = false := by decide +kernel
    exact absurd (hleads.symm.trans habsent) (by decide)
  have hunhindered : Unhindered Main.keyName inquiry 0 tornTree := by
    intro trouble e hrun
    cases hrun
  refine ⟨hnot, ?_, hgranted, hunhindered, ?_⟩
  · have hended := ((run_leaves_nothing Main.keyName publication 0 tornTree).2 hpublication).1 hnot
    exact hended.resolve_right fun h => htorn h.1
  · exact ((run_leaves_nothing Main.keyName inquiry 0 tornTree).2 hinquiry).2 hgranted hunhindered

end Notary
end TrustTrial
