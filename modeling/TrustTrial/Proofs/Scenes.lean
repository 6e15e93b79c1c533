import TrustTrial.Proofs.Fixtures
import TrustTrial.Proofs.Runs

/-!
# TrustTrial.Proofs.Scenes

A trial of the notary as it goes on, between its calls. A `Scene` tells what the session has to show
at such a moment: the record on the server, the number of keys, and what stands in the place of each
temporary entry. Everything else is as it was at the start.

`Plays` says that a step of the trial succeeds and leads from one scene to another, `Fails` that it
fails. A call plays what the notary's command `Goes` to.
-/

namespace TrustTrial

open Disk Notary Trial

/-! ## Scenes -/

/-- What stands in the place of an entry. -/
inductive Content where
  | gone
  | payload (data : ByteArray)
  | home (h : Home)

def Content.Stands (t : Tree) (place : Location) (repo : String) : Content → Prop
  | .gone => ∀ below, place <+: below → t.find? below = none
  | .payload data => ∃ executable, t.find? place = some (.file data executable)
  | .home h => Housed t place repo h

theorem Content.Stands.congr {t t' : Tree} {place : Location} {repo : String} {c : Content}
    (hsame : ∀ below, place <+: below → t'.find? below = t.find? below)
    (h : c.Stands t place repo) : c.Stands t' place repo := by
  cases c with
  | gone => exact fun below hbelow => (hsame below hbelow).trans (h below hbelow)
  | payload data =>
    obtain ⟨executable, hfile⟩ := h
    exact ⟨executable, (hsame place List.prefix_rfl).trans hfile⟩
  | home home => exact Housed.congr hsame h

/-- A moment of a trial. `made` counts the keys, `temps` the temporary entries made so far. -/
@[ext] structure Scene where
  record : Option Record
  made : Nat
  temps : Nat
  content : Nat → Content

def Scene.set (u : Scene) (n : Nat) (c : Content) : Scene :=
  { u with content := fun j => if j = n then c else u.content j }

namespace Fixture

variable (F : Fixture)

def place (n : Nat) : Location := entryPlace F.machine F.temp n

/-- A session that shows a scene. -/
structure Shows (u : Scene) (s : Session Nat) : Prop where
  record : Recorded s.disk F.premises.recordPlace u.record
  entries : ∀ n < F.count, (u.content n).Stands s.disk (F.place n) F.repo
  elsewhere : ∀ place, place ≠ F.premises.recordPlace →
    (∀ n < F.count, ¬F.place n <+: place) → s.disk.find? place = F.ground.find? place
  made : s.client = u.made
  temps : s.temps = u.temps

/-- A step that leads from one scene to another. -/
def Plays {α : Type} (x : Trial Nat α) (u : Scene) (a : α) (w : Scene) : Prop :=
  ∀ s, F.Shows u s → ∃ t, run x s = (.ok a, t) ∧ F.Shows w t

/-- A step that leads from one scene to another, whatever it gives. -/
def Reaches {α : Type} (x : Trial Nat α) (u w : Scene) : Prop :=
  ∀ s, F.Shows u s → ∃ a t, run x s = (.ok a, t) ∧ F.Shows w t

/-- A step that fails. -/
def Fails {α : Type} (x : Trial Nat α) (u : Scene) : Prop :=
  ∀ s, F.Shows u s → ∃ failure t, run x s = (.error failure, t)

variable {F} {α β : Type} {x : Trial Nat α} {f : α → Trial Nat β} {u v w : Scene} {a : α} {b : β}
  {s t : Session Nat} {n : Nat}

theorem Shows.congr (h : F.Shows u s) (hdisk : t.disk = s.disk) (hclient : t.client = s.client)
    (htemps : t.temps = s.temps) : F.Shows u t :=
  ⟨hdisk ▸ h.record, hdisk ▸ h.entries, hdisk ▸ h.elsewhere, hclient.trans h.made,
    htemps.trans h.temps⟩

theorem Shows.grounded (hF : F.Sound) (h : F.Shows u s) : F.premises.Grounded s.disk :=
  hF.grounded h.elsewhere

/-- Nothing is at or below two entries. -/
theorem Sound.place_eq (hF : F.Sound) {i j : Nat} (hi : i < F.count) (hj : j < F.count)
    {place : Location} (h : F.place i <+: place) (h' : F.place j <+: place) : i = j := by
  have hlength : (F.place i).length = (F.place j).length := by
    simp [Fixture.place, entryPlace]
  have hsame : F.place i <+: F.place j := List.prefix_of_prefix_length_le h h' (Nat.le_of_eq hlength)
  exact (hF.roomy.room.place_inj hi hj).1 hsame

/-- A change of the record and of what is at or below one entry changes nothing else. -/
theorem Shows.change (hF : F.Sound) (h : F.Shows u s) (hn : n < F.count)
    (hothers : ∀ j, j ≠ n → w.content j = u.content j)
    (hsame : ∀ place, place ≠ F.premises.recordPlace → ¬F.place n <+: place →
      t.disk.find? place = s.disk.find? place)
    (hrecord : Recorded t.disk F.premises.recordPlace w.record)
    (hcontent : (w.content n).Stands t.disk (F.place n) F.repo) (hmade : t.client = w.made)
    (htemps : t.temps = w.temps) : F.Shows w t := by
  refine ⟨hrecord, fun j hj => ?_, fun place hne hplace => ?_, hmade, htemps⟩
  · by_cases hjn : j = n
    · rw [hjn]
      exact hcontent
    · rw [hothers j hjn]
      refine (h.entries j hj).congr fun below hbelow => hsame below ?_ fun hbelow' => ?_
      · rintro rfl
        exact hF.place_apart hj (by simp [Premises.reserved]) hbelow
      · exact hjn (hF.place_eq hj hn hbelow hbelow')
  · rw [hsame place hne (hplace n hn)]
    exact h.elsewhere place hne hplace

/-! ## Sequences -/

theorem plays_pure : F.Plays (pure a : Trial Nat α) u a u := fun s hs => ⟨s, rfl, hs⟩

theorem Plays.bind (hx : F.Plays x u a v) (hf : F.Plays (f a) v b w) : F.Plays (x >>= f) u b w := by
  intro s hs
  obtain ⟨t, hrun, ht⟩ := hx s hs
  obtain ⟨t', hrun', ht'⟩ := hf t ht
  exact ⟨t', (run_bind_of_ok f hrun).trans hrun', ht'⟩

theorem Plays.fail (hx : F.Plays x u a v) (hf : F.Fails (f a) v) : F.Fails (x >>= f) u := by
  intro s hs
  obtain ⟨t, hrun, ht⟩ := hx s hs
  obtain ⟨failure, t', hrun'⟩ := hf t ht
  exact ⟨failure, t', (run_bind_of_ok f hrun).trans hrun'⟩

theorem Reaches.bind (hx : F.Reaches x u v) (hf : ∀ a, F.Plays (f a) v b w) :
    F.Plays (x >>= f) u b w := by
  intro s hs
  obtain ⟨a, t, hrun, ht⟩ := hx s hs
  obtain ⟨t', hrun', ht'⟩ := hf a t ht
  exact ⟨t', (run_bind_of_ok f hrun).trans hrun', ht'⟩

theorem Reaches.fail (hx : F.Reaches x u v) (hf : ∀ a, F.Fails (f a) v) : F.Fails (x >>= f) u := by
  intro s hs
  obtain ⟨a, t, hrun, ht⟩ := hx s hs
  obtain ⟨failure, t', hrun'⟩ := hf a t ht
  exact ⟨failure, t', (run_bind_of_ok f hrun).trans hrun'⟩

theorem Fails.bind (hx : F.Fails x u) : F.Fails (x >>= f) u := by
  intro s hs
  obtain ⟨failure, t, hrun⟩ := hx s hs
  exact ⟨failure, t, run_bind_of_error f hrun⟩

theorem plays_if {c : Prop} [Decidable c] {y : Trial Nat α} (hc : c) (hx : F.Plays x u a w) :
    F.Plays (if c then x else y) u a w := by
  rw [if_pos hc]
  exact hx

theorem plays_quiet (hx : Quiet x) (h : ∀ s, F.Shows u s → (run x s).1 = .ok a) :
    F.Plays x u a u := by
  intro s hs
  have hsame := hx s
  exact ⟨(run x s).2, Prod.ext (h s hs) rfl, hs.congr hsame.disk hsame.client hsame.temps⟩

theorem plays_announce (title : String) : F.Plays (announce F.machine title) u () u :=
  plays_quiet (quiet_announce _ _) fun _ _ => rfl

theorem plays_enter (stage : Stage) : F.Plays (enter stage) u () u :=
  plays_quiet (quiet_enter _) fun _ _ => rfl

theorem plays_note {e : Event} (hcall : e.call? = none) (hopening : e.opening? = none) :
    F.Plays (Trial.note e) u () u :=
  plays_quiet (quiet_note hcall hopening) fun _ _ => rfl

theorem plays_ofExcept {result : Except Failure α} (h : result = .ok a) :
    F.Plays (Trial.ofExcept result) u a u :=
  plays_quiet (quiet_ofExcept _) fun _ _ => h

theorem plays_inStage (stage : Stage) {result : Except Failure α} (h : result = .ok a) :
    F.Plays (inStage stage result) u a u :=
  plays_quiet (quiet_inStage _ _) fun _ _ => by rw [h]; rfl

theorem fails_inStage (stage : Stage) {result : Except Failure α} {failure : Failure}
    (h : result = .error failure) : F.Fails (inStage stage result) u :=
  fun s _ => ⟨failure.during stage, s, by rw [h]; rfl⟩

/-! ## Calls -/

/-- What the client is told on its input. -/
def input (F : Fixture) (i : Invocation) : List UInt8 :=
  bytes (Prompts.encode (i.answers F.runner.credentials))

/-- What a run of the notary can see at first. -/
def sight (F : Fixture) (u : Scene) (h : Home) (i : Invocation) : View :=
  ⟨u.record, h, u.made, some (F.input i), ""⟩

/-- Words that are no flags. -/
def Worded (i : Invocation) : Prop := ∀ w ∈ i.args.head?, w ∉ ["-s", "-c", "-d", "-D", "debug"]

section Calls

variable {i : Invocation} {h : Home} {seen : View}

theorem fits_sight (hs : F.Shows u s) (hn : n < F.count) (hhome : u.content n = .home h) :
    (F.visit n s.disk).Fits
      ⟨s.disk, (F.runner.request F.machine i).stdin.data.toList, .empty, s.client⟩
      (F.sight u h i) := by
  have hentry := hs.entries n hn
  rw [hhome] at hentry
  refine ⟨hs.record, hentry, fun _ _ _ => rfl, hs.made, ?_, rfl⟩
  rintro _ ⟨⟩
  rfl

theorem office_eq (hi : F.Passes i) :
    F.premises.office = ⟨(F.runner.request F.machine i).here,
      (F.runner.request F.machine i).environment, F.keyName⟩ := by
  rw [Runner.request, hi.environment]
  rfl

/-- A call does what the command goes to. -/
theorem Shows.invoke (hF : F.Sound) (hs : F.Shows u s) (hn : n < F.count) (heven : n % 2 = 0)
    (hhome : u.content n = .home h) (hi : F.Passes i) (hworded : Worded i)
    (hdir : i.trustDir = entry F.machine n)
    (hgoes : (F.visit n s.disk).Goes (command F.office F.server (entry F.machine n) i.args)
      (F.sight u h i) () seen) :
    ∃ t, run (invoke F.machine F.runner i) s = (.ok seen.output, t) ∧
      F.Shows { u.set n (.home seen.home) with record := seen.record, made := seen.made } t := by
  have hground := hs.grounded hF
  have hvisit := hF.visit hn heven hground
  obtain ⟨hcapture, hrefused⟩ := hF.starts hn hi hdir hground
  obtain ⟨d, hrun, hd⟩ := run_of_goes (c := F.visit n s.disk) (office_eq hi)
    (goes_answer hvisit hF.served.chosen hdir hworded hgoes) (fits_sight hs hn hhome)
  have hclient : F.machine.client.run (F.runner.request F.machine i) s.client s.disk =
      (⟨seen.output.toUTF8, "", some 0⟩, seen.made, d.disk) := by
    rw [hF.launched.client]
    exact hrun
  obtain ⟨t, hinvoke, hdisk, hmade, htemps⟩ := run_invoke_of_starts hcapture hrefused hclient
  refine ⟨t, ?_, hs.change hF hn (fun j hj => if_neg hj) (fun place hne hplace => ?_) ?_ ?_ hmade
    (htemps.trans hs.temps)⟩
  · rw [hinvoke, Text.ofBytes_toUTF8]
    rfl
  · rw [hdisk]
    exact hd.elsewhere place hne hplace
  · rw [hdisk]
    exact hd.record
  · rw [hdisk, show (u.set n (.home seen.home)).content n = .home seen.home from if_pos rfl]
    exact hd.home

theorem fails_invoke (hF : F.Sound) (hn : n < F.count) (heven : n % 2 = 0)
    (hhome : u.content n = .home h) (hi : F.Passes i) (hworded : Worded i)
    (hdir : i.trustDir = entry F.machine n)
    (hstops : ∀ s, F.Shows u s → (F.visit n s.disk).Stops
      (command F.office F.server (entry F.machine n) i.args) (F.sight u h i)) :
    F.Fails (invoke F.machine F.runner i) u := by
  intro s hs
  have hground := hs.grounded hF
  have hvisit := hF.visit hn heven hground
  obtain ⟨hcapture, hrefused⟩ := hF.starts hn hi hdir hground
  have hexit := run_of_stops (c := F.visit n s.disk) (office_eq hi)
    (stops_answer hvisit hF.served.chosen hdir hworded (hstops s hs)) (fits_sight hs hn hhome)
  rcases hrun : Notary.run F.keyName (F.runner.request F.machine i) s.client s.disk
    with ⟨reply, made, disk⟩
  replace hexit : reply.exit = some 1 := by rwa [hrun] at hexit
  have hclient : F.machine.client.run (F.runner.request F.machine i) s.client s.disk =
      (reply, made, disk) := by
    rw [hF.launched.client]
    exact hrun
  obtain ⟨t, hinvoke, -⟩ := run_invoke_of_starts hcapture hrefused hclient
  have hfailed : Outcome.succeeded ⟨Text.ofBytes reply.stdout, reply.exit⟩ = false := by
    simp [Outcome.succeeded, hexit]
  simp only [Outcome.output, hfailed, Bool.false_eq_true, if_false] at hinvoke
  exact ⟨_, t, hinvoke⟩

end Calls

/-! ## Temporary entries -/

theorem Shows.kept (hF : F.Sound) (h : F.Shows u s) : Kept F.ground s.disk :=
  (h.grounded hF).directories

theorem plays_makeTemp (hF : F.Sound) {node : Node} {c : Content} (hn : u.temps < F.count)
    (hgone : u.content u.temps = .gone)
    (hc : ∀ t : Tree, (∀ below, F.place u.temps <+: below → t.find? below = none) →
      c.Stands (t.put (F.place u.temps) node) (F.place u.temps) F.repo) :
    F.Plays (makeTemp F.machine (entryEnding u.temps) node) u (entry F.machine u.temps)
      { u.set u.temps c with temps := u.temps + 1 } := by
  intro s hs
  have hentry := hs.entries u.temps hn
  rw [hgone] at hentry
  have hcreate := hF.roomy.room.create_entry (hs.kept hF) hn (hentry _ List.prefix_rfl) node
  rw [← entryPath_eq_entry, ← hs.temps] at hcreate
  have hrun := run_makeTemp_of_ok hcreate
  rw [hs.temps] at hrun
  have hput := Tree.find?_put s.disk (entryPlace_ne_nil F.machine F.temp u.temps) node
  refine ⟨_, hrun, hs.change hF hn (fun j hj => if_neg hj) (fun place _ hplace => ?_) ?_ ?_ hs.made
    rfl⟩
  · refine (hput place).trans (if_neg ?_)
    rintro rfl
    exact hplace List.prefix_rfl
  · refine hs.record.congr ((hput _).trans (if_neg fun he => ?_))
    exact hF.place_apart hn (show F.premises.recordName ∈ _ by simp [Premises.reserved])
      (he ▸ List.prefix_rfl)
  · rw [show (u.set u.temps c).content u.temps = c from if_pos rfl]
    exact hc s.disk hentry

theorem plays_writePayload (hF : F.Sound) (content : String) (hn : u.temps < F.count)
    (hending : entryEnding u.temps = "") (hgone : u.content u.temps = .gone) :
    F.Plays (writePayload F.machine content) u (entry F.machine u.temps)
      { u.set u.temps (.payload content.toUTF8) with temps := u.temps + 1 } := by
  rw [writePayload, ← hending]
  refine plays_makeTemp hF hn hgone fun t _ => ⟨false, ?_⟩
  exact (Tree.find?_put t (entryPlace_ne_nil F.machine F.temp u.temps) _ _).trans (if_pos rfl)

theorem plays_create (hF : F.Sound) {label : String} (hn : u.temps < F.count)
    (hending : entryEnding u.temps = "_" ++ label) (hgone : u.content u.temps = .gone) :
    F.Plays (TrustDir.create F.machine label) u ⟨label, entry F.machine u.temps⟩
      { u.set u.temps (.home .empty) with temps := u.temps + 1 } := by
  rw [TrustDir.create, ← hending]
  refine (plays_makeTemp hF hn hgone fun t ht => ?_).bind plays_pure
  have hput := Tree.find?_put t (entryPlace_ne_nil F.machine F.temp u.temps) .directory
  refine Housed.empty ((hput _).trans (if_pos rfl)) fun place hplace hne => ?_
  exact (hput place).trans ((if_neg hne).trans (ht place hplace))

/-- A tree from which an entry has been removed shows it gone. -/
theorem Shows.remove (hF : F.Sound) (hs : F.Shows u s) (hn : n < F.count) :
    F.Shows (u.set n .gone) { s with disk := s.disk.remove (F.place n) } := by
  have hremove := Tree.find?_remove s.disk (entryPlace_ne_nil F.machine F.temp n)
  refine hs.change hF hn (fun j hj => if_neg hj) (fun place _ hplace => ?_) ?_ ?_ hs.made hs.temps
  · refine (hremove place).trans (if_neg ?_)
    rw [List.isPrefixOf_iff_prefix]
    exact hplace
  · refine hs.record.congr ((hremove _).trans (if_neg ?_))
    rw [List.isPrefixOf_iff_prefix]
    exact hF.place_apart hn (by simp [Premises.reserved])
  · rw [show (u.set n .gone).content n = .gone from if_pos rfl]
    exact fun below hbelow => (hremove below).trans (if_pos (List.isPrefixOf_iff_prefix.2 hbelow))

theorem plays_removePayload (hF : F.Sound) (hn : n < F.count) {data : ByteArray}
    (hpayload : u.content n = .payload data) :
    F.Plays (removePayload F.machine (entry F.machine n)) u () (u.set n .gone) := by
  intro s hs
  have hentry := hs.entries n hn
  rw [hpayload] at hentry
  obtain ⟨executable, hfile⟩ := hentry
  refine ⟨_, ?_, hs.remove hF hn⟩
  rw [removePayload, run_clear, hF.roomy.room.removeFile_entry (hs.kept hF) hn,
    show s.disk.find? (entryPlace F.machine F.temp n) = _ from hfile]
  rfl

theorem plays_remove (hF : F.Sound) (hn : n < F.count) {h : Home} (hhome : u.content n = .home h)
    (label : String) :
    F.Plays (TrustDir.remove F.machine ⟨label, entry F.machine n⟩) u () (u.set n .gone) := by
  intro s hs
  have hentry := hs.entries n hn
  rw [hhome] at hentry
  have hdir : s.disk.find? (entryPlace F.machine F.temp n) = some .directory :=
    Housed.directory hentry
  refine ⟨_, ?_, hs.remove hF hn⟩
  rw [TrustDir.remove, run_clear, hF.roomy.room.removeDirectory_entry (hs.kept hF) hn, hdir]
  rfl

end Fixture
end TrustTrial
