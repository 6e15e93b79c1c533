import TrustTrial.Proofs.Acts

/-!
# TrustTrial.Proofs.Courses

Whole scenarios against the notary. `Progress` is how far a trial has come, and `Progress.next` says
which scenarios can follow. `Fixture.Standing` is what the server, the primary identity and the
trial's own history look like then: the invariant that every scenario keeps.

Each body is played in full or shown to fail, by following its calls one after the other.
-/

namespace TrustTrial

open Disk Notary Trial

/-! ## Progress -/

/-- How far a trial has come. `turned more extended` is after `more + 1` rotations of the root key;
`extended` says whether the second target is published. -/
inductive Progress where
  | fresh
  | founded
  | turned (more : Nat) (extended : Bool)

/-- The progress after one more scenario, if it can pass. -/
def Progress.next : Progress → Scenario → Option Progress
  | .fresh, .basicRepo => some .founded
  | .founded, .rootRotation => some (.turned 0 true)
  | .founded, .rootRerotation => some (.turned 0 false)
  | .turned more extended, .rootRerotation => some (.turned (more + 1) extended)
  | _, _ => none

/-! ## Published targets -/

/-- The content of the payload of a scenario. -/
def Scenario.data (scenario : Scenario) : ByteArray := scenario.name.toUTF8

def basicTargets : Dict Target :=
  Dict.empty.insert basicTarget (.ofContent Scenario.basicRepo.data)

def publishedTargets (extended : Bool) : Dict Target :=
  if extended then basicTargets.insert rotationTarget (.ofContent Scenario.rootRotation.data)
  else basicTargets

theorem toList_publishedTargets (extended : Bool) :
    (publishedTargets extended).toList = (basicTarget, .ofContent Scenario.basicRepo.data) ::
      if extended then [(rotationTarget, .ofContent Scenario.rootRotation.data)] else [] := by
  cases extended <;> rfl

theorem forall_publishedTargets {P : String × Target → Prop} (extended : Bool)
    (hbasic : P (basicTarget, .ofContent Scenario.basicRepo.data))
    (hrotation : P (rotationTarget, .ofContent Scenario.rootRotation.data)) :
    ∀ e ∈ (publishedTargets extended).toList, P e := by
  rw [toList_publishedTargets]
  refine List.forall_mem_cons.2 ⟨hbasic, ?_⟩
  cases extended
  · simp
  · simpa using hrotation

theorem listable_publishedTargets (extended : Bool) : Listable (publishedTargets extended) := by
  have hbasic : Text.Wordy basicTarget := by decide
  have hrotation : Text.Wordy rotationTarget := by decide
  exact forall_publishedTargets extended ⟨hbasic, (Text.wordy_hexadecimal _ _).single⟩
    ⟨hrotation, (Text.wordy_hexadecimal _ _).single⟩

theorem size_data (scenario : Scenario) : scenario.data.size ≤ Text.maxWord := by
  cases scenario <;> decide

theorem size_publishedTargets (extended : Bool) :
    ∀ e ∈ (publishedTargets extended).toList, e.2.size ≤ Text.maxWord :=
  forall_publishedTargets extended (size_data .basicRepo) (size_data .rootRotation)

theorem contains_basicTarget (extended : Bool) :
    (publishedTargets extended).contains basicTarget = true := by
  rw [Dict.contains_eq_any, toList_publishedTargets]
  simp

theorem contains_rotationTarget : (publishedTargets true).contains rotationTarget = true := by
  rw [Dict.contains_eq_any, toList_publishedTargets]
  simp

/-- The first target can be seen in the table. -/
theorem hasName_basicTarget {targets : Dict Target} {extended : Bool}
    (h : targets = publishedTargets extended) :
    TargetListing.hasName basicTarget (TargetListing.read (targetTable targets)) = true := by
  rw [h, hasName_targetTable (listable_publishedTargets extended) (by decide)]
  exact contains_basicTarget extended

theorem count_rotationTarget {targets : Dict Target} (h : targets = publishedTargets true) :
    TargetListing.count rotationTarget targetsRole (TargetListing.read (targetTable targets)) =
      1 := by
  rw [h, count_targetTable (listable_publishedTargets true), contains_rotationTarget]
  rfl

namespace Fixture

/-! ## The invariant -/

/-- Where the primary identity keeps its keys. -/
def keyDir (F : Fixture) : String := privateDir (entry F.machine 0)

def versionAt (turns : Nat) (extended : Bool) : Nat := 2 + turns + if extended then 2 else 0

/-- What the trial remembers is about keys that have been made before. -/
structure Remembers (F : Fixture) (made : Nat) (history : RootHistory) : Prop where
  rows : ∀ line ∈ history.rows, ∃ j < made, line = (rootRow F.keyName F.keyDir j).line
  keys : ∀ key ∈ history.keys, ∃ j < made, key = F.keyName j

/-- The repository is initialized, its record is as the scenarios so far have left it, and the
primary identity holds all root keys there have been. -/
structure Settled (F : Fixture) (turns : Nat) (extended : Bool) (history : RootHistory) (u : Pause)
    (r : Record) (roots : List Nat) : Prop where
  record : u.record = some r
  settled : r.Settled F.keyName u.made turns (publishedTargets extended) (versionAt turns extended)
  keyring : Keyring F.keyName u.made roots u.primary.keys
  length : roots.length = turns + 1
  staged : u.primary.staged = []
  remembers : F.Remembers u.made history
  number : turns + 1 = u.number

/-- What things are like between scenarios. -/
def Standing (F : Fixture) (history : RootHistory) (u : Pause) : Progress → Prop
  | .fresh => u.number = 0 ∧ u.record = none ∧ u.primary = .empty ∧ history = .empty
  | .founded => ∃ r roots, F.Settled 0 false history u r roots
  | .turned more extended => ∃ r roots, F.Settled (more + 1) extended history u r roots

section Remembers

variable {F : Fixture} {made made' : Nat} {history : RootHistory}

theorem Remembers.mono (h : F.Remembers made history) (hmade : made ≤ made') :
    F.Remembers made' history := by
  refine ⟨fun line hline => ?_, fun key hkey => ?_⟩
  · obtain ⟨j, hj, he⟩ := h.rows line hline
    exact ⟨j, by omega, he⟩
  · obtain ⟨j, hj, he⟩ := h.keys key hkey
    exact ⟨j, by omega, he⟩

theorem remembers_empty : F.Remembers made .empty := ⟨by simp [RootHistory.empty],
  by simp [RootHistory.empty]⟩

theorem Remembers.addKey (h : F.Remembers made history) {j : Nat} (hj : j < made) :
    F.Remembers made (history.addKey (F.keyName j)) :=
  ⟨h.rows, List.forall_mem_cons.2 ⟨⟨j, hj, rfl⟩, h.keys⟩⟩

theorem Remembers.addRows (h : F.Remembers made history) (roots : List Nat)
    (hroots : ∀ j ∈ roots, j < made) :
    F.Remembers made
      (history.addRows ((roots.map (rootRow F.keyName F.keyDir)).map KeyRow.line)) := by
  refine ⟨List.forall_mem_append.2 ⟨fun line hline => ?_, h.rows⟩, h.keys⟩
  rw [List.map_map] at hline
  obtain ⟨j, hj, rfl⟩ := List.mem_map.1 hline
  exact ⟨j, hroots j hj, rfl⟩

theorem Remembers.turned (h : F.Remembers made history) :
    F.Remembers (made + 1)
      ((history.addRows [(rootRow F.keyName F.keyDir made).line]).addKey (F.keyName made)) :=
  ((h.mono (Nat.le_succ made)).addRows [made] (by simp)).addKey (Nat.lt_succ_self made)

end Remembers

/-- All calls of a scenario fit, where a number of scenarios are over. -/
def Affords (F : Fixture) (scenario : Scenario) (number : Nat) : Prop :=
  ∀ i ∈ scenario.script F.repo (primaryOf F.machine) (standOf F.machine number), F.Fits i

/-- All calls of a rotation of the root key fit. -/
def AffordsRotation (F : Fixture) (number : Nat) : Prop :=
  ∀ i ∈ rotationScript F.repo (primaryOf F.machine) (standOf F.machine number), F.Fits i

theorem Roomy.newline_notMem_keyDir {F : Fixture} (h : F.Roomy) (hcount : 0 < F.count) :
    '\n' ∉ F.keyDir.toList :=
  newline_notMem_privateDir (h.single_entry hcount)

/-! ## Looking from both sides -/

section Steps

variable {F : Fixture} {a : Act} {r : Record}

/-- Both identities see the same table. -/
theorem plays_listBoth (hF : F.Sound) (hk : F.Enough a)
    (hfits : ∀ who, F.Fits ((F.trustDir a who).invocation ["list", F.repo]))
    (hrecord : a.record = some r) (hversion : r.version ≤ Text.maxWord) :
    F.Plays (listBoth F.machine F.site (standOf F.machine a.number)) a.scene
      (targetTable r.targets, targetTable r.targets) (a.synced r).scene := by
  let seen : Act := { a with primary := { a.primary with root := some r } }
  have hfirst := plays_list hF hk .primary (hfits .primary) hrecord hversion
  have hsecond := plays_list (a := seen) hF hk .secondary (hfits .secondary) hrecord hversion
  exact hfirst.bind (hsecond.bind plays_pure)

/-- The key table as the trial reads it. -/
theorem plays_rootRows (hF : F.Sound) (hk : F.Enough a)
    (hfits : F.Fits ((F.trustDir a .primary).invocation ["key", "list"])) {made : Nat}
    {roots : List Nat}
    (hring : Keyring F.keyName made roots a.primary.keys) :
    ∃ rows, F.Plays (listKeys F.machine F.site F.site.primary) a.scene rows a.scene ∧
      KeyListing.rootRows rows = roots.map (rootRow F.keyName F.keyDir) :=
  ⟨_, plays_listKeys hF hk .primary hfits,
    hring.rootRows (hF.roomy.newline_notMem_keyDir (Nat.zero_lt_of_lt hk))⟩

end Steps

/-! ## Bodies -/

/-- A scenario passes, if nothing is wrong with its clean-up, and brings the trial to a progress. -/
def Performs (F : Fixture) (scenario : Scenario) (history : RootHistory) (u : Pause)
    (q : Progress) : Prop :=
  ∃ (later : RootHistory) (a : Act), a.number = u.number ∧
    F.Plays (body F.machine F.site (standOf F.machine u.number) history scenario)
      (u.act scenario).scene later a.scene ∧
    F.Standing later a.after q

section Bodies

variable {F : Fixture} {history : RootHistory} {u : Pause} {r : Record}

/-- Versions stay within 64 bits during one more scenario. -/
theorem Settled.version_le (hcount : F.count ≤ Text.maxWord) (hk : 2 * u.number + 2 < F.count)
    {turns : Nat} {extended : Bool} {roots : List Nat}
    (h : F.Settled turns extended history u r roots) :
    versionAt turns extended + 3 ≤ Text.maxWord := by
  have hword : 20 ≤ Text.maxWord := by decide
  have hnumber := h.number
  rw [versionAt]
  split <;> omega

theorem bounded_of_settled {keyName : Nat → String} {made turns version : Nat} {extended : Bool}
    (h : r.Settled keyName made turns (publishedTargets extended) version)
    (hversion : version ≤ Text.maxWord) : r.Bounded :=
  h.bounded hversion (size_publishedTargets extended)

/-- The second target joins the first one. -/
theorem extend_settled {keyName : Nat → String} {made turns version : Nat} {staged : List Staged}
    (h : r.Settled keyName made turns (publishedTargets false) version)
    (hstaged : staged = [⟨rotationTarget, .ofContent Scenario.rootRotation.data⟩]) :
    (r.publish staged).bump.Settled keyName made turns (publishedTargets true) (version + 1) := by
  have hpublished := h.publish staged
  rw [hstaged] at hpublished ⊢
  exact hpublished

/-- The basic scenario passes on a server that knows nothing of the repository. -/
theorem performs_basicRepo (hF : F.Sound) (hk : 2 * u.number + 2 < F.count)
    (hfits : F.Affords .basicRepo u.number) (h : F.Standing history u .fresh) :
    F.Performs .basicRepo history u .founded := by
  obtain ⟨number, record, made, primary⟩ := u
  obtain ⟨rfl, rfl, rfl, rfl⟩ :
    number = 0 ∧ record = none ∧ primary = .empty ∧ history = .empty := h
  simp only [Affords, Scenario.script, List.forall_mem_cons] at hfits
  obtain ⟨finit, fadd, fpublish, flist, flist', fverify, -⟩ := hfits
  have hrepo : '\n' ∉ F.repo.toList := fun hmem => (hF.named.letters _ hmem).1 rfl
  have hword : 2 ≤ Text.maxWord := by decide
  have hfounded := settled_founding hF.distinct F.repo made []
  have hring := keyring_founding hF.words hrepo made
  rcases hmade : madeKeys F.keyName F.repo firstRoles made .empty [] with ⟨r, keys⟩
  rw [hmade] at hfounded hring
  have hpublished := hfounded.publish [⟨basicTarget, .ofContent Scenario.basicRepo.data⟩]
  let first : Act := Pause.act ⟨0, none, made, .empty⟩ .basicRepo
  let initialized : Act :=
    { first with record := some r.bump, made := made + 4, primary := ⟨keys, [], some r.bump⟩ }
  let staged : List Staged := [⟨basicTarget, .ofContent Scenario.basicRepo.data⟩]
  let added : Act := { initialized with primary := ⟨keys, staged, some r.bump⟩ }
  let s := (r.bump.publish staged).bump
  let published : Act := { added with record := some s, primary := ⟨keys, [], some s⟩ }
  have hs : s.Settled F.keyName (made + 4) 0 (publishedTargets false) 2 := hpublished
  have hversion : s.version ≤ Text.maxWord := hs.version ▸ hword
  have hinit := plays_init (a := first) hF hk finit rfl hmade
    (hfounded.bounded (by decide) (by simp [Dict.empty]))
  have hnul : Path.hasNul basicTarget = false := by decide
  have hadd := plays_add (a := initialized) hF hk fadd hnul (size_data .basicRepo)
    (by simp [initialized])
  have hpublish := plays_publish (a := added) hF hk .primary fpublish rfl
    (by simp [added, staged, Act.home]) (bounded_of_settled hs hword)
  have hlist := plays_listBoth (a := published) hF hk (Identity.rec flist flist') rfl hversion
  have htarget : s.targets.get? basicTarget = some (.ofContent Scenario.basicRepo.data) := by
    rw [hs.targets]
    rfl
  have hverify := plays_verify (a := published.synced s) hF hk rfl fverify hnul htarget
  have hbody : F.Plays (basicRepo F.machine F.site (standOf F.machine 0)) first.scene ()
      (published.synced s).scene := by
    refine (plays_announce _).bind (hinit.bind fun _ => hadd.bind (hpublish.bind ?_))
    refine (plays_announce _).bind (hlist.bind ?_)
    refine (plays_ofExcept (agreedListing_eq_ok.2 ⟨rfl, rfl⟩)).bind ?_
    exact plays_if (hasName_basicTarget hs.targets) (hverify.bind fun _ => plays_pure)
  refine ⟨.empty, published.synced s, rfl, hbody.bind plays_pure, s, [made], ?_⟩
  exact ⟨rfl, hs, hring, rfl, rfl, remembers_empty, rfl⟩

theorem fails_basicRepo (hF : F.Sound) {a : Act} (hk : F.Enough a)
    (hfits : F.Affords .basicRepo a.number) (hrecord : a.record = some r) :
    F.Fails (basicRepo F.machine F.site (standOf F.machine a.number)) a.scene :=
  (plays_announce _).fail (fails_init hF hk (hfits _ List.mem_cons_self) hrecord).bind

/-! ### A checked rotation -/

/-- The moment after a rotation of the root key that both identities have seen. -/
def turned (F : Fixture) (a : Act) (r : Record) : Act :=
  let s := (r.trust "root" (F.keyName a.made)).bump
  { a with
    record := some s
    made := a.made + 1
    primary := ⟨a.primary.keys ++ [⟨"root", "", F.keyName a.made⟩], a.primary.staged, some s⟩
    secondary := { a.secondary with root := some s } }

/-- A rotation passes its checks, if all current root rows are known. -/
theorem plays_checkedRotation (hF : F.Sound) {a : Act} (hk : F.Enough a)
    (hfits : F.AffordsRotation a.number) (hrecord : a.record = some r) {turns version : Nat}
    {extended : Bool}
    (hr : r.Settled F.keyName a.made turns (publishedTargets extended) version)
    (hversion : version + 1 ≤ Text.maxWord) {roots : List Nat}
    (hring : Keyring F.keyName a.made roots a.primary.keys)
    (hcurrent : ∀ j ∈ roots, (rootRow F.keyName F.keyDir j).line ∈ history.rows)
    (hknown : F.Remembers a.made history) {i : Nat} (hi : i < a.made) :
    F.Plays (rotateRoot F.machine F.site (standOf F.machine a.number) history
        ⟨4 + turns, F.keyName i⟩) a.scene
      ((history.addRows [(rootRow F.keyName F.keyDir a.made).line]).addKey (F.keyName a.made))
      (F.turned a r).scene := by
  simp only [AffordsRotation, rotationScript, List.forall_mem_cons] at hfits
  obtain ⟨frotate, fkeys, flist, -⟩ := hfits
  let s := (r.trust "root" (F.keyName a.made)).bump
  have hs : s.Settled F.keyName (a.made + 1) (turns + 1) (publishedTargets extended) (version + 1) :=
    hr.trust hF.distinct
  let b : Act := { F.turned a r with secondary := a.secondary }
  have hdir := hF.roomy.newline_notMem_keyDir (Nat.zero_lt_of_lt hk)
  have hrows := hring.newRootRows hF.distinct hF.words hdir hcurrent hknown.rows
  have hrotate := plays_rotateRoot hF hk frotate hrecord (bounded_of_settled hs hversion)
  have hkeys := plays_listKeys (a := b) hF hk .primary fkeys
  have hlist := plays_list (a := b) hF hk .secondary flist rfl (hs.version ▸ hversion)
  have hload := plays_loadRoot (a := F.turned a r) (r := s) hF hk .secondary rfl
  have hrotated := hr.rotated hF.distinct hi hknown.keys
  refine (plays_enter _).bind ((plays_announce _).bind (hrotate.bind fun _ => ?_))
  refine (plays_enter _).bind ((plays_enter _).bind (hkeys.bind ?_))
  refine (plays_inStage _ (newRootRow_eq_ok.2 ⟨_, hrows, rfl⟩)).bind ?_
  refine (plays_enter _).bind (hlist.bind (hload.bind ((plays_inStage _ hrotated).bind ?_)))
  exact (plays_note rfl rfl).bind plays_pure

/-- A rotation with the loading of the root document before it. What the trial remembers at its end
is about keys that have been made. -/
theorem plays_rotation (hF : F.Sound) {a : Act} (hk : F.Enough a)
    (hfits : F.AffordsRotation a.number) (hrecord : a.record = some r)
    (hroot : a.secondary.root = some r) {turns version : Nat} {extended : Bool}
    (hr : r.Settled F.keyName a.made turns (publishedTargets extended) version)
    (hversion : version + 1 ≤ Text.maxWord) {roots : List Nat}
    (hring : Keyring F.keyName a.made roots a.primary.keys)
    (hremembers : F.Remembers a.made history) :
    ∃ later, F.Remembers (a.made + 1) later ∧
      ∀ {f : RootHistory → Trial Nat RootHistory} {ended : RootHistory} {w : Scene},
        F.Plays (f later) (F.turned a r).scene ended w →
        F.Plays (do
          let document ← loadRoot F.machine F.site (standOf F.machine a.number).secondary
          let before ← inStage .keysEnumerated (RootState.capture document)
          let lines := (roots.map (rootRow F.keyName F.keyDir)).map KeyRow.line
          let history ← rotateRoot F.machine F.site (standOf F.machine a.number)
            ((history.addRows lines).addKey before.rootKey) before
          f history) a.scene ended w := by
  obtain ⟨i, hi, hcapture⟩ := hr.capture
  let lines := (roots.map (rootRow F.keyName F.keyDir)).map KeyRow.line
  let known := (history.addRows lines).addKey (F.keyName i)
  have hknown : F.Remembers a.made known := (hremembers.addRows roots hring.issued).addKey hi
  have hcurrent : ∀ j ∈ roots, (rootRow F.keyName F.keyDir j).line ∈ known.rows := fun j hj =>
    List.mem_append_left _ (List.mem_map_of_mem (List.mem_map_of_mem hj))
  have hload := plays_loadRoot hF hk .secondary hroot
  have hrotate := plays_checkedRotation hF hk hfits hrecord hr hversion hring hcurrent hknown hi
  exact ⟨_, hknown.turned, fun hf =>
    hload.bind ((plays_inStage _ hcapture).bind (hrotate.bind hf))⟩

/-! ### Rotations -/

/-- The record after a rotation of the snapshot key. -/
def resnapped (F : Fixture) (made : Nat) (r : Record) : Record :=
  ((r.dropKeys "snapshot").trust "snapshot" (F.keyName made)).bump

/-- The moment after that, once the secondary identity has looked. -/
def resnappedAct (F : Fixture) (u : Pause) (r : Record) : Act :=
  let s := F.resnapped u.made r
  { u.act .rootRotation with
    record := some s
    made := u.made + 1
    primary := ⟨keysWithout "snapshot" F.repo u.primary.keys, u.primary.staged, some s⟩
    secondary := ⟨[], [], some s⟩ }

theorem Settled.resnapped (hF : F.Sound) {turns : Nat} {extended : Bool} {roots : List Nat}
    (h : F.Settled turns extended history u r roots) :
    (F.resnapped u.made r).Settled F.keyName (u.made + 1) turns (publishedTargets extended)
        (versionAt turns extended + 1) ∧
      Keyring F.keyName (u.made + 1) roots (F.resnappedAct u r).primary.keys :=
  ⟨h.settled.replace hF.distinct (by decide), h.keyring.without (by decide) F.repo⟩

/-- How a rotation scenario begins, whether it can pass or not. -/
theorem Settled.rotation_begins (hF : F.Sound) (hcount : F.count ≤ Text.maxWord)
    (hk : 2 * u.number + 2 < F.count) (hfits : F.Affords .rootRotation u.number)
    {turns : Nat} {extended : Bool} {roots : List Nat}
    (h : F.Settled turns extended history u r roots) :
    ∃ (b : Act) (table : String) (rows : List KeyRow),
      F.Reaches (invoke F.machine F.runner F.snapshotRequest) (u.act .rootRotation).scene b.scene ∧
      F.Plays (listTargets F.machine F.site (standOf F.machine u.number).secondary) b.scene table
        (F.resnappedAct u r).scene ∧
      F.Plays (listKeys F.machine F.site F.site.primary) (F.resnappedAct u r).scene rows
        (F.resnappedAct u r).scene ∧
      KeyListing.rootRows rows = roots.map (rootRow F.keyName F.keyDir) := by
  simp only [Affords, Scenario.script, List.cons_append, List.forall_mem_cons] at hfits
  obtain ⟨fsnapshot, flist, fkeys, -⟩ := hfits
  obtain ⟨hr, hring⟩ := h.resnapped hF
  have hversion := h.version_le hcount hk
  let b : Act := { F.resnappedAct u r with secondary := .empty }
  have hsnapshot := plays_rotateSnapshot (a := u.act .rootRotation) hF hk fsnapshot h.record
    (bounded_of_settled hr (by omega))
  have hlist := plays_list (a := b) hF hk .secondary flist rfl (by rw [hr.version]; omega)
  obtain ⟨rows, hkeys, hrows⟩ := plays_rootRows (a := F.resnappedAct u r) hF hk fkeys hring
  exact ⟨b, _, rows, hsnapshot, hlist, hkeys, hrows⟩

/-- The rotation scenario passes after the basic one. -/
theorem performs_rootRotation (hF : F.Sound) (hcount : F.count ≤ Text.maxWord)
    (hk : 2 * u.number + 2 < F.count) (hfits : F.Affords .rootRotation u.number)
    (h : F.Standing history u .founded) :
    F.Performs .rootRotation history u (.turned 0 true) := by
  obtain ⟨r, roots, h⟩ := h
  obtain ⟨j, rfl⟩ := List.length_eq_one_iff.1 h.length
  obtain ⟨b, table, rows, hsnapshot, hlist, hkeys, hrows⟩ := h.rotation_begins hF hcount hk hfits
  simp only [Affords, Scenario.script, List.forall_mem_append, List.forall_mem_cons] at hfits
  obtain ⟨⟨-, frotation⟩, fnothing, fadd, fpublish, flist, flist', -⟩ := hfits
  obtain ⟨hr, hring⟩ := h.resnapped hF
  have hversion := h.version_le hcount hk
  obtain ⟨later, hlater, hturn⟩ := plays_rotation (a := F.resnappedAct u r) hF hk frotation rfl rfl
    hr (by omega) hring (h.remembers.mono (Nat.le_succ u.made))
  let rotated : Act := F.turned (F.resnappedAct u r) (F.resnapped u.made r)
  let t := ((F.resnapped u.made r).trust "root" (F.keyName (u.made + 1))).bump
  let staged : List Staged :=
    u.primary.staged ++ [⟨rotationTarget, .ofContent Scenario.rootRotation.data⟩]
  let added : Act := { rotated with primary := { rotated.primary with staged := staged } }
  let p := (t.publish staged).bump
  let published : Act :=
    { added with record := some p, primary := ⟨added.primary.keys, [], some p⟩ }
  have ht : t.Settled F.keyName (u.made + 1 + 1) 1 (publishedTargets false)
      (versionAt 0 false + 1 + 1) := hr.trust hF.distinct
  have hp : p.Settled F.keyName (u.made + 1 + 1) 1 (publishedTargets true) (versionAt 1 true) :=
    extend_settled ht (by simp [staged, h.staged])
  have htversion : t.version ≤ Text.maxWord := by
    rw [ht.version]
    omega
  have hnothing := plays_publish_nothing (a := rotated) hF hk .secondary fnothing rfl rfl htversion
  have hadd := plays_add (a := rotated) hF hk fadd
    (show Path.hasNul rotationTarget = false by decide) (size_data .rootRotation)
    (by simp [rotated, turned, resnappedAct, h.staged])
  have hpublish := plays_publish (a := added) hF hk .primary fpublish rfl
    (by simp [added, staged, Act.home]) (bounded_of_settled hp (by decide))
  have hboth := plays_listBoth (a := published) hF hk (Identity.rec flist flist') rfl
    (hp.version ▸ by decide)
  refine ⟨later, published.synced p, rfl, ?_, p, [j] ++ [u.made + 1], ?_⟩
  · refine (plays_enter _).bind (hsnapshot.bind fun _ => (plays_enter _).bind ?_)
    refine (plays_announce _).bind (hlist.bind (hkeys.bind ?_))
    refine (plays_inStage _ (singleRoot_eq_ok.2 hrows)).bind (hturn ((plays_enter _).bind ?_))
    refine (plays_announce _).bind (hnothing.bind (hadd.bind (hpublish.bind ?_)))
    refine hboth.bind ((plays_inStage _ (agreedListing_eq_ok.2 ⟨rfl, rfl⟩)).bind ?_)
    exact plays_if (count_rotationTarget hp.targets) plays_pure
  · exact ⟨rfl, hp, hring.rotate hF.words, rfl, rfl, hlater, congrArg (· + 1) h.number⟩

theorem fails_rootRerotation_fresh (hF : F.Sound) (hk : 2 * u.number + 2 < F.count)
    (hfits : F.Affords .rootRerotation u.number) (hrecord : u.record = none) :
    F.Fails (rootRerotation F.machine F.site (standOf F.machine u.number) history)
      (u.act .rootRerotation).scene :=
  (plays_enter _).fail ((plays_announce _).fail
    (fails_list (a := u.act .rootRerotation) hF hk .secondary (hfits _ List.mem_cons_self)
      hrecord).bind)

theorem fails_rootRotation_fresh (hF : F.Sound) (hk : 2 * u.number + 2 < F.count)
    (hfits : F.Affords .rootRotation u.number) (hrecord : u.record = none) :
    F.Fails (rootRotation F.machine F.site (standOf F.machine u.number) history)
      (u.act .rootRotation).scene :=
  (plays_enter _).fail
    (fails_rotateSnapshot (a := u.act .rootRotation) hF hk (hfits _ List.mem_cons_self)
      hrecord).bind

/-- With several root keys it is not clear which row is the current one. -/
theorem fails_rootRotation_turned (hF : F.Sound) (hcount : F.count ≤ Text.maxWord)
    (hk : 2 * u.number + 2 < F.count) (hfits : F.Affords .rootRotation u.number)
    {turns : Nat} {extended : Bool} {roots : List Nat}
    (h : F.Settled (turns + 1) extended history u r roots) :
    F.Fails (rootRotation F.machine F.site (standOf F.machine u.number) history)
      (u.act .rootRotation).scene := by
  obtain ⟨b, table, rows, hsnapshot, hlist, hkeys, hrows⟩ := h.rotation_begins hF hcount hk hfits
  have hsingle : KeyListing.singleRoot rows =
      .error (.violated (.rootRows ((KeyListing.rootRows rows).map KeyRow.line))) := by
    have hlength := congrArg List.length hrows
    rw [List.length_map, h.length] at hlength
    rw [KeyListing.singleRoot]
    split
    · rename_i row hrow
      rw [hrow] at hlength
      simp at hlength
    · rfl
  refine (plays_enter _).fail (hsnapshot.fail fun _ => (plays_enter _).fail ?_)
  refine (plays_announce _).fail (hlist.fail (hkeys.fail ?_))
  exact (fails_inStage _ hsingle).bind

/-- The moment of a rerotation at which the secondary identity has looked. -/
def lookedAct (u : Pause) (r : Record) : Act :=
  { u.act .rootRerotation with secondary := ⟨[], [], some r⟩ }

/-- A further rotation passes once there is a repository. -/
theorem performs_rootRerotation (hF : F.Sound) (hcount : F.count ≤ Text.maxWord)
    (hk : 2 * u.number + 2 < F.count) (hfits : F.Affords .rootRerotation u.number)
    {turns : Nat} {extended : Bool} {roots : List Nat}
    (h : F.Settled turns extended history u r roots) :
    F.Performs .rootRerotation history u (.turned turns extended) := by
  simp only [Affords, Scenario.script, List.forall_mem_append, List.forall_mem_cons] at hfits
  obtain ⟨⟨⟨flook, fkeys, -⟩, frotation⟩, fsecondary, fprimary, flist, flist', -⟩ := hfits
  have hversion := h.version_le hcount hk
  let looked := lookedAct u r
  obtain ⟨later, hlater, hturn⟩ := plays_rotation (a := looked) hF hk frotation h.record rfl
    h.settled (by omega) h.keyring h.remembers
  let lines := (roots.map (rootRow F.keyName F.keyDir)).map KeyRow.line
  have hlines : ¬lines.isEmpty = true := by
    have hlength := h.length
    cases roots with
    | nil => cases hlength
    | cons j roots => exact Bool.false_ne_true
  let t := (r.trust "root" (F.keyName u.made)).bump
  let rotated : Act := F.turned looked r
  have ht : t.Settled F.keyName (u.made + 1) (turns + 1) (publishedTargets extended)
      (versionAt (turns + 1) extended) := by
    rw [show versionAt (turns + 1) extended = versionAt turns extended + 1 by
      simp only [versionAt]
      omega]
    exact h.settled.trust hF.distinct
  have htversion : t.version ≤ Text.maxWord := by
    have hturned := (h.settled.trust hF.distinct).version
    rw [show t.version = versionAt turns extended + 1 from hturned]
    omega
  have hlist := plays_list (a := u.act .rootRerotation) hF hk .secondary flook h.record
    (by rw [h.settled.version]; omega)
  obtain ⟨rows, hkeys, hrows⟩ := plays_rootRows (a := looked) hF hk fkeys h.keyring
  have hsecondary := plays_publish_nothing (a := rotated) hF hk .secondary fsecondary rfl rfl
    htversion
  have hprimary := plays_publish_nothing (a := rotated) hF hk .primary fprimary rfl h.staged
    htversion
  have hboth := plays_listBoth (a := rotated) hF hk (Identity.rec flist flist') rfl htversion
  refine ⟨later, rotated.synced t, rfl, ?_, t, roots ++ [u.made], ?_⟩
  · refine (plays_enter _).bind ((plays_announce _).bind (hlist.bind (hkeys.bind ?_)))
    dsimp only
    rw [hrows, if_neg hlines]
    refine hturn ((plays_enter _).bind ?_)
    refine (plays_announce _).bind (hsecondary.bind (hprimary.bind (hboth.bind ?_)))
    exact (plays_inStage _ (agreedListing_eq_ok.2 ⟨rfl, rfl⟩)).bind
      (plays_if (hasName_basicTarget ht.targets) plays_pure)
  · refine ⟨rfl, ht, h.keyring.rotate hF.words, ?_, h.staged, hlater, congrArg (· + 1) h.number⟩
    rw [List.length_append, h.length]
    rfl

/-! ### Every scenario -/

/-- A scenario that can follow passes. -/
theorem Standing.performs (hF : F.Sound) (hcount : F.count ≤ Text.maxWord)
    (hk : 2 * u.number + 2 < F.count) {p q : Progress} {scenario : Scenario}
    (hfits : F.Affords scenario u.number) (h : F.Standing history u p)
    (hnext : p.next scenario = some q) :
    F.Performs scenario history u q := by
  cases p with
  | fresh =>
    cases scenario with
    | basicRepo =>
      cases hnext
      exact performs_basicRepo hF hk hfits h
    | rootRotation => cases hnext
    | rootRerotation => cases hnext
  | founded =>
    cases scenario with
    | basicRepo => cases hnext
    | rootRotation =>
      cases hnext
      exact performs_rootRotation hF hcount hk hfits h
    | rootRerotation =>
      cases hnext
      obtain ⟨r, roots, hsettled⟩ := h
      exact performs_rootRerotation hF hcount hk hfits hsettled
  | turned more extended =>
    cases scenario with
    | basicRepo => cases hnext
    | rootRotation => cases hnext
    | rootRerotation =>
      cases hnext
      obtain ⟨r, roots, hsettled⟩ := h
      exact performs_rootRerotation hF hcount hk hfits hsettled

/-- A scenario that cannot follow fails. -/
theorem Standing.fails (hF : F.Sound) (hcount : F.count ≤ Text.maxWord)
    (hk : 2 * u.number + 2 < F.count) {p : Progress} {scenario : Scenario}
    (hfits : F.Affords scenario u.number) (h : F.Standing history u p)
    (hnext : p.next scenario = none) :
    F.Fails (body F.machine F.site (standOf F.machine u.number) history scenario)
      (u.act scenario).scene := by
  cases p with
  | fresh =>
    cases scenario with
    | basicRepo => cases hnext
    | rootRotation => exact fails_rootRotation_fresh hF hk hfits h.2.1
    | rootRerotation => exact fails_rootRerotation_fresh hF hk hfits h.2.1
  | founded =>
    obtain ⟨r, roots, hsettled⟩ := h
    cases scenario with
    | basicRepo => exact (fails_basicRepo (a := u.act .basicRepo) hF hk hfits hsettled.record).bind
    | rootRotation => cases hnext
    | rootRerotation => cases hnext
  | turned more extended =>
    obtain ⟨r, roots, hsettled⟩ := h
    cases scenario with
    | basicRepo => exact (fails_basicRepo (a := u.act .basicRepo) hF hk hfits hsettled.record).bind
    | rootRotation => exact fails_rootRotation_turned hF hcount hk hfits hsettled
    | rootRerotation => cases hnext

end Bodies

end Fixture
end TrustTrial
