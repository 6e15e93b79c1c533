import TrustTrial.Proofs.Courses
import TrustTrial.Proofs.Trace

/-!
# TrustTrial.Proofs.Agreement

Whole trials of the notary. A list of scenarios passes exactly if it is `Acceptable`, and then the
record on the server is `LeftBy` it: it counts the rotations in its keys, and has the targets that
the scenarios publish.

`Progress.after` goes through a list. Between scenarios the trial is `Standing` somewhere, and
set-up, body and clean-up take it from one pause to the next.
-/

namespace TrustTrial

open Disk Notary Trial

/-! ## Lists of scenarios -/

/-- The basic scenario comes first and only then, the snapshot key is rotated at most once, and the
root key is not rotated again before that. -/
def Acceptable (scenarios : List Scenario) : Prop :=
  scenarios = [] ∨
    scenarios.head? = some .basicRepo ∧ scenarios.count .basicRepo = 1 ∧
      scenarios.count .rootRotation ≤ 1 ∧
      scenarios.Pairwise fun a b => ¬(a = .rootRerotation ∧ b = .rootRotation)

instance (scenarios : List Scenario) : Decidable (Acceptable scenarios) :=
  inferInstanceAs (Decidable (_ ∨ _ ∧ _))

namespace Progress

/-- The progress after a list of scenarios, if all of them can pass. -/
def after : Progress → List Scenario → Option Progress
  | p, [] => some p
  | p, scenario :: scenarios => (p.next scenario).bind fun q => q.after scenarios

/-- How often the root key has been rotated. -/
def turns : Progress → Nat
  | .fresh => 0
  | .founded => 0
  | .turned more _ => more + 1

def extended : Progress → Bool
  | .turned _ extended => extended
  | _ => false

theorem next_eq {p q : Progress} {scenario : Scenario} (h : p.next scenario = some q) :
    q ≠ .fresh ∧ q.turns = p.turns + (if scenario = .basicRepo then 0 else 1) ∧
      q.extended = (p.extended || scenario = .rootRotation) := by
  cases p <;> cases scenario <;> simp only [next, reduceCtorEq, Option.some.injEq] at h
  all_goals
    subst h
    simp [turns, extended]

/-- Where a list leads to, if it passes. -/
theorem after_eq {p q : Progress} {scenarios : List Scenario} (h : p.after scenarios = some q) :
    q.turns = p.turns + (scenarios.count .rootRotation + scenarios.count .rootRerotation) ∧
      q.extended = (p.extended || .rootRotation ∈ scenarios) := by
  induction scenarios generalizing p with
  | nil =>
    cases h
    simp
  | cons scenario scenarios ih =>
    obtain ⟨r, hnext, hafter⟩ := Option.bind_eq_some_iff.1 h
    obtain ⟨-, hturns, hextended⟩ := next_eq hnext
    obtain ⟨hturns', hextended'⟩ := ih hafter
    rw [hturns', hextended', hturns, hextended]
    cases scenario
    · simp
    · simp
      omega
    · simp
      omega

theorem after_ne_fresh {p q : Progress} {scenarios : List Scenario} (hne : scenarios ≠ [])
    (h : p.after scenarios = some q) : q ≠ .fresh := by
  induction scenarios generalizing p with
  | nil => exact absurd rfl hne
  | cons scenario scenarios ih =>
    obtain ⟨r, hnext, hafter⟩ := Option.bind_eq_some_iff.1 h
    cases scenarios with
    | nil =>
      cases hafter
      exact (next_eq hnext).1
    | cons other scenarios => exact ih (List.cons_ne_nil _ _) hafter

/-- After a rotation only further ones can follow. -/
theorem isSome_after_turned (more : Nat) (extended : Bool) (scenarios : List Scenario) :
    ((turned more extended).after scenarios).isSome ↔
      .basicRepo ∉ scenarios ∧ .rootRotation ∉ scenarios := by
  induction scenarios generalizing more with
  | nil => simp [after]
  | cons scenario scenarios ih =>
    cases scenario with
    | basicRepo => simp [after, next]
    | rootRotation => simp [after, next]
    | rootRerotation => simpa [after, next] using ih (more + 1)

theorem ordered_of_not_mem {scenarios : List Scenario} (h : .rootRotation ∉ scenarios) :
    scenarios.Pairwise fun a b => ¬(a = .rootRerotation ∧ b = .rootRotation) := by
  refine List.pairwise_of_forall_mem_list fun a _ b hb => ?_
  rintro ⟨-, rfl⟩
  exact h hb

/-- What can follow the basic scenario. -/
theorem isSome_after_founded (scenarios : List Scenario) :
    (founded.after scenarios).isSome ↔
      .basicRepo ∉ scenarios ∧ scenarios.count .rootRotation ≤ 1 ∧
        scenarios.Pairwise fun a b => ¬(a = .rootRerotation ∧ b = .rootRotation) := by
  cases scenarios with
  | nil => simp [after]
  | cons scenario scenarios =>
    cases scenario with
    | basicRepo => simp [after, next]
    | rootRotation =>
      rw [show founded.after (.rootRotation :: scenarios) = (turned 0 true).after scenarios from
        rfl, isSome_after_turned]
      constructor
      · rintro ⟨hbasic, hrotation⟩
        refine ⟨by simpa using hbasic, by simpa [List.count_eq_zero] using hrotation, ?_⟩
        exact List.pairwise_cons.2 ⟨by simp, ordered_of_not_mem hrotation⟩
      · rintro ⟨hbasic, hrotation, -⟩
        exact ⟨by simpa using hbasic, by simpa [List.count_eq_zero] using hrotation⟩
    | rootRerotation =>
      rw [show founded.after (.rootRerotation :: scenarios) = (turned 0 false).after scenarios from
        rfl, isSome_after_turned]
      constructor
      · rintro ⟨hbasic, hrotation⟩
        refine ⟨by simpa using hbasic, ?_, ordered_of_not_mem (by simpa using hrotation)⟩
        simp [List.count_eq_zero.2 hrotation]
      · rintro ⟨hbasic, -, hordered⟩
        refine ⟨by simpa using hbasic, fun hmem => ?_⟩
        exact (List.pairwise_cons.1 hordered).1 _ hmem ⟨rfl, rfl⟩

theorem isSome_after_fresh (scenarios : List Scenario) :
    (fresh.after scenarios).isSome ↔ Acceptable scenarios := by
  cases scenarios with
  | nil => simp [after, Acceptable]
  | cons scenario scenarios =>
    cases scenario with
    | basicRepo =>
      rw [show (fresh.after (.basicRepo :: scenarios)) = founded.after scenarios from rfl,
        isSome_after_founded]
      simp [Acceptable, List.count_eq_zero]
    | rootRotation => simp [after, next, Acceptable]
    | rootRerotation => simp [after, next, Acceptable]

end Progress

namespace Fixture

variable {F : Fixture} {history : RootHistory} {u : Pause} {p q : Progress} {scenario : Scenario}
  {scenarios : List Scenario}

/-! ## Single scenarios -/

theorem plays_setUp (hF : F.Sound) (scenario : Scenario) (hk : 2 * u.number + 2 < F.count) :
    F.Plays (setUp F.machine scenario) u.scene (standOf F.machine u.number)
      (u.act scenario).scene := by
  let filled : Scene :=
    { u.scene.set (2 * u.number + 1) (.payload scenario.data) with temps := 2 * u.number + 2 }
  have hpayload : F.Plays (writePayload F.machine scenario.name) u.scene
      (entry F.machine (2 * u.number + 1)) filled :=
    plays_writePayload hF scenario.name (by simp only [Pause.scene]; omega)
      (entryEnding_payload u.number) (by simp [Pause.scene])
  have hsecondary : F.Plays (TrustDir.secondary F.machine) filled
      ⟨"temp", entry F.machine (2 * u.number + 2)⟩
      { filled.set (2 * u.number + 2) (.home .empty) with temps := 2 * u.number + 3 } :=
    plays_create hF hk (entryEnding_secondary u.number) (by simp [filled, Scene.set, Pause.scene])
  have hscene : { filled.set (2 * u.number + 2) (.home .empty) with temps := 2 * u.number + 3 } =
      (u.act scenario).scene := by
    refine Scene.ext rfl rfl rfl (funext fun n => ?_)
    simp only [filled, Scene.set, Pause.scene, Act.scene, Pause.act, Scenario.data]
    by_cases hzero : n = 0
    · simp [hzero]
    · by_cases hsecondary : n = 2 * u.number + 2
      · simp [hsecondary]
      · simp [hzero, hsecondary]
  intro s hs
  obtain ⟨t, hrun, ht⟩ := hpayload s hs
  obtain ⟨v, hrun', hv⟩ := hsecondary t ht
  rw [hscene] at hv
  refine ⟨v, ?_, hv⟩
  simp only [run_setUp, hrun, hrun', standOf_eq]

theorem plays_cleanUp (hF : F.Sound) (a : Act) (hk : F.Enough a) :
    F.Plays (cleanUp F.machine (standOf F.machine a.number)) a.scene () a.after.scene := by
  have hcount : 2 * a.number + 2 < F.count := hk
  have hpayload := plays_removePayload hF (by omega) (Act.content_payload a)
  have hhome : (a.scene.set (2 * a.number + 1) .gone).content (2 * a.number + 2) =
      .home a.secondary := by
    simp [Scene.set, Act.scene]
  have hsecondary := plays_remove hF hk hhome "temp"
  have hscene : (a.scene.set (2 * a.number + 1) .gone).set (2 * a.number + 2) .gone =
      a.after.scene := by
    refine Scene.ext rfl rfl rfl (funext fun n => ?_)
    simp only [Scene.set, Act.scene, Pause.scene, Act.after]
    by_cases hzero : n = 0
    · simp [hzero]
    · by_cases hsecondary : n = 2 * a.number + 2
      · simp [hsecondary]
      · by_cases hpayload : n = 2 * a.number + 1
        · simp [hpayload]
        · simp [hzero, hsecondary, hpayload]
  intro s hs
  obtain ⟨t, hrun, ht⟩ := hpayload s hs
  obtain ⟨v, hrun', hv⟩ := hsecondary t ht
  rw [hscene] at hv
  refine ⟨v, ?_, hv⟩
  simp only [run_cleanUp, standOf_eq, hrun, hrun']

/-- A scenario whose body is played in full passes. -/
theorem Performs.plays (hF : F.Sound) (hk : 2 * u.number + 2 < F.count)
    (h : F.Performs scenario history u q) :
    ∃ (later : RootHistory) (w : Pause), w.number = u.number + 1 ∧ F.Standing later w q ∧
      F.Plays (runScenario F.machine F.site history scenario) u.scene later w.scene := by
  obtain ⟨later, a, hnumber, hbody, hstanding⟩ := h
  refine ⟨later, a.after, congrArg (· + 1) hnumber, hstanding, fun s hs => ?_⟩
  have hopened : F.Shows u.scene (opened F.machine scenario s) := hs.congr rfl rfl rfl
  obtain ⟨t, hsetUp, ht⟩ := plays_setUp hF scenario hk _ hopened
  obtain ⟨v, hrun, hv⟩ := hbody t ht
  have hcleanUp := plays_cleanUp hF a (by rw [Enough, hnumber]; exact hk)
  rw [hnumber] at hcleanUp
  obtain ⟨w, hclean, hw⟩ := hcleanUp v hv
  refine ⟨passed F.machine w, ?_, hw.congr rfl rfl rfl⟩
  simp only [run_runScenario, hsetUp, hrun, hclean]

/-- A scenario whose body fails does so too. -/
theorem fails_runScenario (hF : F.Sound) (hk : 2 * u.number + 2 < F.count)
    (h : F.Fails (body F.machine F.site (standOf F.machine u.number) history scenario)
      (u.act scenario).scene) :
    F.Fails (runScenario F.machine F.site history scenario) u.scene := by
  intro s hs
  have hopened : F.Shows u.scene (opened F.machine scenario s) := hs.congr rfl rfl rfl
  obtain ⟨t, hsetUp, ht⟩ := plays_setUp hF scenario hk _ hopened
  obtain ⟨failure, v, hrun⟩ := h t ht
  refine ⟨failure, (run (cleanUp F.machine (standOf F.machine u.number)) v).2, ?_⟩
  simp only [run_runScenario, hsetUp, hrun]

/-! ## Lists -/

/-- All calls of a list fit, where a number of scenarios are over. -/
def AffordsFrom (F : Fixture) (number : Nat) (scenarios : List Scenario) : Prop :=
  ∀ i ∈ scriptFrom F.repo (primaryOf F.machine) (standOf F.machine) number scenarios, F.Fits i

theorem affordsFrom_cons {number : Nat} : F.AffordsFrom number (scenario :: scenarios) ↔
    F.Affords scenario number ∧ F.AffordsFrom (number + 1) scenarios :=
  List.forall_mem_append

/-- What `Progress.after` says of a list is what becomes of it. -/
theorem Standing.plays_runEach (hF : F.Sound) (hcount : F.count ≤ Text.maxWord)
    (hk : 2 * (u.number + scenarios.length) < F.count)
    (hfits : F.AffordsFrom u.number scenarios) (h : F.Standing history u p)
    (hafter : p.after scenarios = some q) (before : List Scenario) :
    ∃ (later : RootHistory) (w : Pause), F.Standing later w q ∧
      F.Plays (runEach F.machine F.site history before scenarios) u.scene (before ++ scenarios)
        w.scene := by
  induction scenarios generalizing history u p before with
  | nil =>
    cases hafter
    exact ⟨history, u, h, (List.append_nil before).symm ▸ plays_pure⟩
  | cons scenario scenarios ih =>
    rw [List.length_cons] at hk
    obtain ⟨hnow, hlater⟩ := affordsFrom_cons.1 hfits
    obtain ⟨r, hnext, hrest⟩ := Option.bind_eq_some_iff.1 hafter
    obtain ⟨next, v, hnumber, hv, hplays⟩ :=
      (h.performs hF hcount (by omega) hnow hnext).plays hF (by omega)
    obtain ⟨later, w, hw, heach⟩ := ih (by omega) (hnumber ▸ hlater) hv hrest (before ++ [scenario])
    rw [List.append_assoc, List.singleton_append] at heach
    refine ⟨later, w, hw, fun s hs => ?_⟩
    obtain ⟨t, hrun, ht⟩ := hplays s hs
    obtain ⟨t', hrun', ht'⟩ := heach t ht
    refine ⟨t', ?_, ht'⟩
    simp only [run_runEach_cons, hrun, hrun']

theorem Standing.fails_runEach (hF : F.Sound) (hcount : F.count ≤ Text.maxWord)
    (hk : 2 * (u.number + scenarios.length) < F.count)
    (hfits : F.AffordsFrom u.number scenarios) (h : F.Standing history u p)
    (hafter : p.after scenarios = none) (before : List Scenario) :
    F.Fails (runEach F.machine F.site history before scenarios) u.scene := by
  induction scenarios generalizing history u p before with
  | nil => cases hafter
  | cons scenario scenarios ih =>
    rw [List.length_cons] at hk
    obtain ⟨hnow, hlater⟩ := affordsFrom_cons.1 hfits
    intro s hs
    cases hnext : p.next scenario with
    | none =>
      obtain ⟨failure, t, hrun⟩ :=
        fails_runScenario hF (by omega) (h.fails hF hcount (by omega) hnow hnext) s hs
      refine ⟨failure, reported F.machine scenario failure t, ?_⟩
      simp only [run_runEach_cons, hrun]
    | some r =>
      obtain ⟨next, v, hnumber, hv, hplays⟩ :=
        (h.performs hF hcount (by omega) hnow hnext).plays hF (by omega)
      obtain ⟨t, hrun, ht⟩ := hplays s hs
      have hrest : r.after scenarios = none := by
        rwa [Progress.after, hnext, Option.bind_some] at hafter
      obtain ⟨failure, t', hrun'⟩ :=
        ih (by omega) (hnumber ▸ hlater) hv hrest (before ++ [scenario]) t ht
      refine ⟨failure, t', ?_⟩
      simp only [run_runEach_cons, hrun, hrun']

/-! ## Whole trials -/

/-- The moment at which nothing has been made yet. -/
def blank (made : Nat) : Scene := ⟨none, made, 0, fun _ => .gone⟩

theorem shows_blank (hF : F.Sound) (made : Nat) : F.Shows (blank made) (.start F.ground made) :=
  ⟨hF.served.unused, fun n hn => hF.roomy.room.free n hn, fun _ _ _ => rfl, rfl, rfl⟩

theorem plays_primary (hF : F.Sound) (made : Nat) (hcount : 0 < F.count) :
    F.Plays (TrustDir.primary F.machine) (blank made) F.site.primary
      (Pause.scene ⟨0, none, made, .empty⟩) :=
  plays_create hF (u := blank made) hcount rfl rfl

theorem standing_start (made : Nat) : F.Standing .empty ⟨0, none, made, .empty⟩ .fresh :=
  ⟨rfl, rfl, rfl, rfl⟩

theorem Standing.settled (h : F.Standing history u q) (hne : q ≠ .fresh) :
    ∃ r roots, F.Settled q.turns q.extended history u r roots := by
  cases q with
  | fresh => exact absurd rfl hne
  | founded => exact h
  | turned more extended => exact h

/-- A list that goes through passes, and leaves the record of where it leads to. -/
theorem runAll_passes (hF : F.Sound) (hcount : F.count ≤ Text.maxWord)
    (hk : 2 * scenarios.length < F.count) (hfits : F.AffordsFrom 0 scenarios) (made : Nat)
    (hafter : Progress.fresh.after scenarios = some q) :
    ∃ (later : RootHistory) (w : Pause), F.Standing later w q ∧
      F.Plays (runAll F.machine F.runner F.repo scenarios) (blank made) scenarios
        (w.scene.set 0 .gone) := by
  obtain ⟨later, w, hw, heach⟩ := (standing_start made).plays_runEach hF hcount
    (show 2 * (0 + scenarios.length) < F.count by omega) hfits hafter []
  rw [List.nil_append] at heach
  refine ⟨later, w, hw, fun s hs => ?_⟩
  obtain ⟨t, hprimary, ht⟩ := plays_primary hF made (by omega) s hs
  obtain ⟨v, hrun, hv⟩ := heach t ht
  have hhome : w.scene.content 0 = .home w.primary := rfl
  obtain ⟨x, hremove, hx⟩ := plays_remove hF (by omega) hhome "main" v hv
  refine ⟨x, ?_, hx⟩
  simp only [run_runAll, hprimary]
  rw [show (⟨F.runner, F.repo, F.site.primary⟩ : Site) = F.site from rfl, hrun,
    show F.site.primary = ⟨"main", entry F.machine 0⟩ from rfl, hremove]

theorem runAll_fails (hF : F.Sound) (hcount : F.count ≤ Text.maxWord)
    (hk : 2 * scenarios.length < F.count) (hfits : F.AffordsFrom 0 scenarios) (made : Nat)
    (hafter : Progress.fresh.after scenarios = none) :
    F.Fails (runAll F.machine F.runner F.repo scenarios) (blank made) := by
  have heach := (standing_start made).fails_runEach hF hcount
    (show 2 * (0 + scenarios.length) < F.count by omega) hfits hafter []
  intro s hs
  obtain ⟨t, hprimary, ht⟩ := plays_primary hF made (by omega) s hs
  obtain ⟨failure, v, hrun⟩ := heach t ht
  refine ⟨failure, (run (F.site.primary.remove F.machine) v).2, ?_⟩
  simp only [run_runAll, hprimary]
  rw [show (⟨F.runner, F.repo, F.site.primary⟩ : Site) = F.site from rfl, hrun]

end Fixture

/-- What a list of scenarios makes of a record: one trusted key for each role, one more key for each
rotation of the root key, and the published targets. -/
structure LeftBy (scenarios : List Scenario) (r : Record) : Prop where
  keys : r.keys.size =
    4 + (scenarios.count .rootRotation + scenarios.count .rootRerotation)
  roles : r.roles.keys = ["root", "snapshot", "targets", "timestamp"]
  trusted : ∀ role ∈ r.roles.keys, ∃ id, r.roles.get? role = some [id] ∧
    r.keys.get? id = some role
  targets : r.targets = publishedTargets (.rootRotation ∈ scenarios)

namespace Fixture

variable {F : Fixture}

/-- The record that a trial has left on the server. -/
def Leaves (F : Fixture) (disk : Tree) (r : Record) : Prop :=
  ∃ text, disk.readText F.machine.here (recordPath F.server F.repo) = .ok text ∧
    readAs Record.shape Record.ofValue? text = .ok r

theorem Shows.leaves (hF : F.Sound) {w : Scene} {s : Session Nat} (hs : F.Shows w s) {r : Record}
    (hr : w.record = some r) : F.Leaves s.disk r := by
  have hg := hs.grounded hF
  have hrecord := hs.record
  rw [hr] at hrecord
  have htext := (leads_of_holds (hF.premises.leads_record hg) (hF.premises.clear hg)
    (by rw [List.append_nil]; exact hrecord.2)).2
  exact ⟨_, htext, readAs_record hrecord.1⟩

theorem Settled.leftBy {history : RootHistory} {u : Pause} {q : Progress} {r : Record}
    {roots : List Nat} {scenarios : List Scenario}
    (h : F.Settled q.turns q.extended history u r roots)
    (hafter : Progress.fresh.after scenarios = some q) : LeftBy scenarios r := by
  obtain ⟨hturns, hextended⟩ := Progress.after_eq hafter
  have hroles := h.settled.roles
  refine ⟨?_, hroles, fun role hrole => ?_, ?_⟩
  · rw [h.settled.size, hturns]
    simp [Progress.turns]
  · have hfirst : role ∈ firstRoles := by
      rw [hroles] at hrole
      revert role
      decide
    obtain ⟨j, -, htrusted, hkey⟩ := h.settled.ruled.trusted role hfirst
    exact ⟨_, htrusted, hkey⟩
  · rw [h.settled.targets, hextended]
    simp [Progress.extended]

/-- A trial of the notary passes exactly if its scenarios are acceptable and all its calls fit, and
then the record shows it. -/
theorem runAll_iff_acceptable (hF : F.Sound) (scenarios : List Scenario)
    (hk : 2 * scenarios.length < F.count) (hcount : F.count ≤ Text.maxWord) (made : Nat) :
    let ended := run (runAll F.machine F.runner F.repo scenarios) (.start F.ground made)
    (ended.1 = .ok scenarios ↔
        Acceptable scenarios ∧ ∀ i ∈ script F.machine F.repo scenarios, F.Fits i) ∧
      (ended.1 = .ok scenarios → scenarios ≠ [] →
        ∃ r, F.Leaves ended.2.disk r ∧ LeftBy scenarios r) := by
  intro ended
  have hstart := shows_blank hF made
  -- A call that does not fit cannot be made, so that nothing is left to show.
  by_cases hfits : ∀ i ∈ script F.machine F.repo scenarios, F.Fits i
  swap
  · have hfails : ended.1 ≠ .ok scenarios := fun hpasses =>
      hfits (runAll_fits (Prod.ext hpasses rfl))
    exact ⟨⟨fun h => absurd h hfails, fun h => absurd h.2 hfits⟩, fun h => absurd h hfails⟩
  rw [← Progress.isSome_after_fresh]
  cases hafter : Progress.fresh.after scenarios with
  | none =>
    obtain ⟨failure, t, hrun⟩ := runAll_fails hF hcount hk hfits made hafter _ hstart
    have hended : ended = (.error failure, t) := hrun
    simp [hended]
  | some q =>
    obtain ⟨later, w, hw, hplays⟩ := runAll_passes hF hcount hk hfits made hafter
    obtain ⟨t, hrun, ht⟩ := hplays _ hstart
    have hended : ended = (.ok scenarios, t) := hrun
    rw [hended]
    refine ⟨by simpa using hfits, fun _ hne => ?_⟩
    obtain ⟨r, roots, hsettled⟩ := hw.settled (Progress.after_ne_fresh hne hafter)
    exact ⟨r, ht.leaves hF hsettled.record, hsettled.leftBy hafter⟩

/-! ## A sample -/

/-- The notary is installed, and the server is empty. -/
def stocked : Tree := ⟨(["server"], .directory) :: Main.disk.nodes⟩

def sample (passphrases : Passphrases) : Fixture where
  machine := Main.machine "sample"
  runner := { sampleRunner with server := .remote "file:///server", passphrases := passphrases }
  repo := "sample"
  keyName := Main.keyName
  server := "/server"
  shelf := ["server"]
  temp := ["tmp"]
  login := none
  ground := stocked
  count := 7

section Sample

variable {passphrases : Passphrases}

theorem served_sample : (sample passphrases).Served where
  located := (rfl : stocked.locate [] "/server" = .ok ["server"])
  directory := rfl
  unused := rfl
  fresh := rfl
  unlocked := fun _ => rfl
  login := nofun
  chosen := (by decide : serverDir? "file:///server" = some "/server")

theorem named_sample : (sample passphrases).Named where
  letters := by
    have hall : "sample".toList.all (fun c => decide (c ≠ '\n' ∧ c ≠ '\x00')) = true := by decide
    exact fun c hc => of_decide_eq_true (List.all_eq_true.1 hall c hc)
  segments := (by decide +kernel : ∀ part ∈ Path.parts "sample", Path.Plain part)
  record_name := (by decide +kernel : Path.Plain (replaceSlashes "sample" ++ ".json"))
  record_path := (by decide +kernel : Tree.refuse? (recordPath "/server" "sample") = none)
  not_login := (by decide : "sample" ≠ "login")

theorem room_sample : Room (Main.machine "sample") 7 ["tmp"] stocked where
  found := rfl
  directory := rfl
  plain := by decide +kernel
  fits := by decide +kernel
  distinct := by decide +kernel
  free := by
    rintro n hn _ ⟨rest, rfl⟩
    simp [entryPlace, Tree.find?, findNode, stocked, Main.disk]

theorem roomy_sample : (sample passphrases).Roomy where
  room := room_sample
  names := by
    have hall : ∀ n < 7, (Text.hexadecimal 6 n).toList.all
        (fun c => decide (c ≠ '.' ∧ c ≠ '\n')) = true := by decide +kernel
    exact fun n hn c hc => of_decide_eq_true (List.all_eq_true.1 (hall n hn) c hc)
  single := (by decide : '\n' ∉ "/tmp".toList)
  keys_path := (by decide +kernel :
    ∀ n < 7, n % 2 = 0 → Tree.refuse? (keysPath (entry (Main.machine "sample") n)) = none)
  staged_path := (by decide +kernel : ∀ n < 7, n % 2 = 0 →
    Tree.refuse? (stagedPath (entry (Main.machine "sample") n) "sample") = none)
  root_path := (by decide +kernel : ∀ n < 7, n % 2 = 0 →
    Tree.refuse? (RootDocument.path (entry (Main.machine "sample") n) "sample") = none)

theorem sound_sample : (sample sampleRunner.passphrases).Sound where
  served := served_sample
  named := named_sample
  roomy := roomy_sample
  launched := {
    client := rfl
    program := ⟨_, rfl⟩
    inherited := by decide +kernel
    nonempty := by decide
    passable := by decide +kernel }
  distinct := Text.hexadecimal_injective 32
  words := Text.wordy_hexadecimal 32

end Sample

theorem runAll_iff_acceptable_sample :
    let F := sample sampleRunner.passphrases
    let ended := run (runAll F.machine F.runner F.repo [.basicRepo, .rootRotation, .rootRerotation])
      (.start F.ground 0)
    ended.1 = .ok [.basicRepo, .rootRotation, .rootRerotation] ∧
      ∃ r, F.Leaves ended.2.disk r ∧ r.keys.size = 6 := by
  have hroom : 2 * 3 < (sample sampleRunner.passphrases).count := by decide
  obtain ⟨hiff, hleaves⟩ := runAll_iff_acceptable sound_sample
    [.basicRepo, .rootRotation, .rootRerotation] hroom (by decide) 0
  have hpasses := hiff.2 ⟨by decide, by decide +kernel⟩
  obtain ⟨r, hr, hleft⟩ := hleaves hpasses (List.cons_ne_nil _ _)
  exact ⟨hpasses, r, hr, hleft.keys⟩

/-- Passphrases that no program can be given: there is a character in them that ends a variable. -/
def torn : Passphrases := { sampleRunner.passphrases with root := "ro\x00ot" }

/-- Passphrases of which one is too long for a variable. -/
def wide : Passphrases := { sampleRunner.passphrases with root := passphrase 131049 }

/-- Such passphrases are not empty, but with them nothing can be called. -/
theorem runAll_refuses_torn :
    ((torn.root ≠ "" ∧ torn.targets ≠ "" ∧ torn.snapshot ≠ "") ∧
        (sample torn).Served ∧ (sample torn).Named ∧ (sample torn).Roomy ∧
        Function.Injective (sample torn).keyName ∧ Acceptable [.basicRepo] ∧
        (run (runAll (Main.machine "sample") (sample torn).runner "sample" [.basicRepo])
          (.start stocked 0)).1 ≠ .ok [.basicRepo]) ∧
      (wide.root ≠ "" ∧ wide.targets ≠ "" ∧ wide.snapshot ≠ "") ∧
        (∀ v ∈ wide.assignments, Path.hasNul v.2 = false) ∧
        (sample wide).Served ∧ (sample wide).Named ∧ (sample wide).Roomy ∧
        (run (runAll (Main.machine "sample") (sample wide).runner "sample" [.basicRepo])
          (.start stocked 0)).1 ≠ .ok [.basicRepo] := by
  have hsize : wide.root.utf8ByteSize = 131049 := utf8ByteSize_passphrase _
  refine ⟨⟨by decide, served_sample, named_sample, roomy_sample, Text.hexadecimal_injective 32,
    by decide, fun hpasses => ?_⟩, ⟨?_, by decide, by decide⟩, ?_, served_sample, named_sample,
    roomy_sample, fun hpasses => ?_⟩
  · have hfails : (run (runAll (Main.machine "sample") (sample torn).runner "sample" [.basicRepo])
        (.start stocked 0)).1.isOk = false := by decide +kernel
    rw [hpasses] at hfails
    cases hfails
  · intro hempty
    rw [hempty] at hsize
    cases hsize
  · simp only [wide, Passphrases.assignments, List.forall_mem_cons, hasNul_passphrase, true_and]
    decide
  · refine failure_of_root (r := (sample wide).runner) ?_ (congrArg failure? hpasses)
    exact hsize ▸ by decide

end Fixture
end TrustTrial
