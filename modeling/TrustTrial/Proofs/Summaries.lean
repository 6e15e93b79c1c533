import TrustTrial.Main
import TrustTrial.Proofs.Outset
import TrustTrial.Proofs.Ways

/-!
# TrustTrial.Proofs.Summaries

A run from its arguments to its summary. `Went` tells how the scenarios go, each on what the one
before has left, up to the first that fails, and `runEach` goes like this (`Went.run_runEach`). With
the gates before it (`run_halted`) and the removal of the primary identity after it, that makes a
whole run (`run_wired`).
-/

namespace TrustTrial

open Disk

variable {σ : Type}

namespace Disk
namespace Tree

variable {t u : Tree} {here : Location} {path : String}

/-- What has been created is not the root. -/
theorem place_ne_nil_of_create {node : Node} (h : t.create here path node = .ok u) :
    Path.place here path ≠ [] := by
  rw [create] at h
  split at h
  · cases h
  · rename_i place hlocate
    rw [← locate_eq_place hlocate]
    split at h
    · rename_i hnone
      have hfree : t.find? place ≠ some .directory := by simp [hnone]
      exact ne_nil_of_find? hfree
    · cases h

theorem look_removeDirectory (hplace : Path.place here path ≠ [])
    (h : t.removeDirectory here path = .ok u) (node : Node) : u.look here path ≠ .ok node := by
  intro hnode
  obtain ⟨place, hlocate, hfind⟩ := look_eq_ok.1 hnode
  obtain rfl := locate_eq_place hlocate
  obtain ⟨place, hbefore, -, rfl⟩ := removeDirectory_eq_ok.1 h
  obtain rfl := locate_eq_place hbefore
  rw [find?_remove _ hplace, if_pos (List.isPrefixOf_iff_prefix.2 List.prefix_rfl)] at hfind
  cases hfind

/-- Of a directory that is missing there is nothing. -/
theorem look_of_removeDirectory_missing {fault : Fault}
    (h : t.removeDirectory here path = .error fault) (hmissing : fault.isMissing = true)
    (node : Node) : t.look here path ≠ .ok node := by
  intro hnode
  obtain ⟨place, hlocate, hfind⟩ := look_eq_ok.1 hnode
  simp only [removeDirectory, hlocate, hfind] at h
  cases node <;> cases h
  cases hmissing

end Tree
end Disk

namespace Trial

/-! ## Scenarios one after the other -/

/-- How scenarios go from a history and a session: which of them are started, the failure of the
last of these if it fails, and the session that is left. -/
inductive Went (m : Machine σ) (site : Site) :
    RootHistory → List Scenario → Session σ → List Scenario → Option Failure → Session σ →
      Prop where
  | nil {history : RootHistory} {s : Session σ} : Went m site history [] s [] none s
  | failed {history : RootHistory} {scenario : Scenario} {scenarios : List Scenario}
      {s t : Session σ} {failure : Failure} :
      run (runScenario m site history scenario) s = (.error failure, t) →
      Went m site history (scenario :: scenarios) s [scenario] (some failure)
        (reported m scenario failure t)
  | passed {history history' : RootHistory} {scenario : Scenario}
      {scenarios started : List Scenario} {s t u : Session σ} {fault : Option Failure} :
      run (runScenario m site history scenario) s = (.ok history', t) →
      Went m site history' scenarios t started fault u →
      Went m site history (scenario :: scenarios) s (scenario :: started) fault u

/-- What scenarios come to. -/
def upTo (scenarios : List Scenario) : Option Failure → Except Failure (List Scenario)
  | none => .ok scenarios
  | some failure => .error failure

section Went

variable {m : Machine σ} {site : Site} {history : RootHistory} {scenario : Scenario}
  {scenarios started : List Scenario} {s t u : Session σ} {fault : Option Failure}

theorem exists_went (m : Machine σ) (site : Site) (history : RootHistory)
    (scenarios : List Scenario) (s : Session σ) :
    ∃ started fault u, Went m site history scenarios s started fault u := by
  induction scenarios generalizing history s with
  | nil => exact ⟨[], none, s, .nil⟩
  | cons scenario scenarios ih =>
    rcases hrun : run (runScenario m site history scenario) s with ⟨failure | history', t⟩
    · exact ⟨[scenario], some failure, _, .failed hrun⟩
    · obtain ⟨started, fault, u, hwent⟩ := ih history' t
      exact ⟨scenario :: started, fault, u, .passed hrun hwent⟩

theorem Went.run_runEach (h : Went m site history scenarios s started fault u)
    (before : List Scenario) :
    run (runEach m site history before scenarios) s = (upTo (before ++ scenarios) fault, u) := by
  induction h generalizing before with
  | nil => rw [run_runEach_nil, List.append_nil, upTo]
  | failed hrun => rw [run_runEach_cons, hrun]; rfl
  | @passed _ _ scenario scenarios _ _ _ _ _ hrun _ ih =>
    have hrest := ih (before ++ [scenario])
    rw [List.append_assoc, List.singleton_append] at hrest
    rw [run_runEach_cons, hrun]
    exact hrest

theorem Went.isPrefix (h : Went m site history scenarios s started fault u) :
    started <+: scenarios := by
  induction h with
  | nil => exact List.prefix_rfl
  | failed _ => exact List.cons_prefix_cons.2 ⟨rfl, List.nil_prefix⟩
  | passed _ _ ih => exact List.cons_prefix_cons.2 ⟨rfl, ih⟩

/-- Without a failure all scenarios have been started. -/
theorem Went.all (h : Went m site history scenarios s started none u) : started = scenarios := by
  generalize hfault : (none : Option Failure) = fault at h
  induction h with
  | nil => rfl
  | failed _ => cases hfault
  | passed _ _ ih => rw [ih hfault]

theorem Went.started_ne_nil (h : Went m site history scenarios s started fault u)
    (hne : scenarios ≠ []) : started ≠ [] := by
  cases h with
  | nil => exact absurd rfl hne
  | failed _ => exact List.cons_ne_nil _ _
  | passed _ _ => exact List.cons_ne_nil _ _

theorem openings_body (m : Machine σ) (site : Site) (stand : Stand) (history : RootHistory)
    (scenario : Scenario) (s : Session σ) :
    openings (run (body m site stand history scenario) s).2.journal = openings s.journal := by
  refine (scripted_body m site stand history scenario).preserves
    (I := fun t => openings t.journal = openings s.journal) ?_ ?_ s rfl
  · exact fun t u hsame ht => hsame.openings.trans ht
  · intro i _ t u reply ht _ _ hjournal
    rw [hjournal, openings_append, ht]
    exact List.append_nil _

/-- A scenario opens itself and no other. -/
theorem openings_runScenario (m : Machine σ) (site : Site) (history : RootHistory)
    (scenario : Scenario) (s : Session σ) :
    openings (run (runScenario m site history scenario) s).2.journal =
      openings s.journal ++ [scenario] := by
  have hopened : openings (opened m scenario s).journal = openings s.journal ++ [scenario] := by
    rw [opened_journal, openings_append]
    rfl
  rw [run_runScenario]
  rcases hset : run (setUp m scenario) (opened m scenario s) with ⟨failure | stand, t⟩
  all_goals obtain ⟨-, hjournal, -⟩ := setUp_cases hset
  · exact (congrArg openings hjournal).trans hopened
  · have hcleaned : openings (run (cleanUp m stand)
        (run (body m site stand history scenario) t).2).2.journal =
          openings s.journal ++ [scenario] := by
      rw [(sameTalk_cleanUp m stand _).journal, openings_body, hjournal, hopened]
    dsimp only
    split <;> exact hcleaned

theorem Went.openings (h : Went m site history scenarios s started fault u) :
    openings u.journal = openings s.journal ++ started := by
  induction h with
  | nil => exact (List.append_nil _).symm
  | @failed history scenario _ s _ _ hrun =>
    have hone := openings_runScenario m site history scenario s
    rw [hrun] at hone
    exact hone
  | @passed history _ scenario _ _ s _ _ _ hrun _ ih =>
    have hone := openings_runScenario m site history scenario s
    rw [hrun] at hone
    rw [ih, hone, List.append_assoc]
    rfl

end Went

/-! ## The primary identity -/

theorem primary_eq_ok {m : Machine σ} {s t : Session σ} {d : TrustDir}
    (h : run (TrustDir.primary m) s = (.ok d, t)) : t.journal = s.journal ∧
      ∃ disk, s.disk.create m.here d.path .directory = .ok disk := by
  simp only [TrustDir.primary, run_create, String.reduceAppend] at h
  cases hcreate : s.disk.create m.here (entryPath m "_main" s.temps) .directory with
  | error fault =>
    rw [run_makeTemp_of_error hcreate] at h
    cases h
  | ok disk =>
    rw [run_makeTemp_of_ok hcreate] at h
    cases h
    exact ⟨rfl, disk, hcreate⟩

/-- Nothing is left where an identity has been removed. -/
theorem not_leads_of_removed {m : Machine σ} {d : TrustDir} {s t : Session σ}
    (hplace : Path.place m.here d.path ≠ []) (h : run (d.remove m) s = (.ok (), t)) :
    t.disk.leads m.here d.path = false := by
  rw [Bool.eq_false_iff, ne_eq, Tree.leads_iff]
  rintro ⟨node, hnode⟩
  rw [TrustDir.remove, run_clear] at h
  cases hremoved : s.disk.removeDirectory m.here d.path with
  | ok disk =>
    rw [hremoved] at h
    cases h
    exact Tree.look_removeDirectory hplace hremoved node hnode
  | error fault =>
    -- It was missing before, and nothing has changed.
    rw [hremoved] at h
    dsimp only at h
    cases hmissing : fault.isMissing with
    | false => simp [hmissing] at h
    | true =>
      rw [hmissing] at h
      cases h
      exact Tree.look_of_removeDirectory_missing hremoved hmissing node hnode

end Trial

namespace Program

open Trial

/-! ## Whole runs -/

section Runs

variable {m : Machine σ} {a : Arguments} {s u : Session σ} {p : Plan} {primary : TrustDir}
  {started : List Scenario} {fault : Option Failure}

theorem Prepared.scenarios_ne_nil {disk : Tree} (h : Prepared m a disk p) : p.scenarios ≠ [] := by
  intro hnil
  have hnone : ∀ scenario : Scenario, ¬(a.scenarios = [] ∨ scenario.name ∈ a.scenarios) := by
    intro scenario
    rw [← h.named, hnil]
    exact List.not_mem_nil
  cases hnames : a.scenarios with
  | nil => exact hnone .basicRepo (.inl hnames)
  | cons name names =>
    have hfirst : name ∈ a.scenarios := by simp [hnames]
    obtain ⟨scenario, rfl⟩ := h.known name hfirst
    exact hnone scenario (.inr hfirst)

/-- A run that has come to its scenarios: with its plan, its primary identity, the scenarios that
are started, the failure of the last of these if it fails, and the session in which the primary
identity is still to be removed. -/
structure Underway (m : Machine σ) (a : Arguments) (s : Session σ) (p : Plan) (primary : TrustDir)
    (started : List Scenario) (fault : Option Failure) (u : Session σ) : Prop where
  prepared : Prepared m a s.disk p
  went : ∃ t, Trial.run (TrustDir.primary m) s = (.ok primary, t) ∧
    Went m ⟨p.runner, p.repo, primary⟩ .empty p.scenarios t started fault u

/-- What a run comes to when its scenarios are over: the failure of a scenario counts before that of
the last removal. -/
def close (m : Machine σ) (p : Plan) (fault : Option Failure) :
    Except Failure Unit × Session σ → Except Failure (List Scenario) × Session σ
  | (removed, t) =>
    match fault, removed with
    | some failure, _ => (.error failure, t)
    | none, .error failure => (.error failure, t)
    | none, .ok () => (.ok p.scenarios, summed m p.scenarios t)

theorem exists_underway (h : ∀ gate, Open m a s gate) :
    ∃ p primary started fault u, Underway m a s p primary started fault u ∧
      Trial.run (run m a) s = close m p fault (Trial.run (primary.remove m) u) := by
  obtain ⟨p, hp, hprepared⟩ :=
    exists_prepared (h .settings) (h .selection) (h .program) (h .login)
  have hawait := awaitServer_of_open hprepared (h .server)
  obtain ⟨primary, t, hprimary⟩ :
      ∃ primary t, Trial.run (TrustDir.primary m) s = (.ok primary, t) := exists_primary (h .home)
  obtain ⟨started, fault, u, hwent⟩ :=
    exists_went m ⟨p.runner, p.repo, primary⟩ .empty p.scenarios t
  refine ⟨p, primary, started, fault, u, ⟨hprepared, t, hprimary, hwent⟩, ?_⟩
  rw [run_of_ready hp hawait, run_runAll, hprimary]
  simp only [hwent.run_runEach]
  rcases Trial.run (primary.remove m) u with ⟨removed, v⟩
  cases fault <;> cases removed <;> rfl

theorem close_eq_ok {removed : Except Failure Unit × Session σ} {passed : List Scenario}
    {v : Session σ} :
    close m p fault removed = (.ok passed, v) ↔
      passed = p.scenarios ∧ fault = none ∧ ∃ t, removed = (.ok (), t) ∧ v = summed m passed t := by
  obtain ⟨result, t⟩ := removed
  cases fault <;> cases result <;> simp only [close] <;> grind

theorem close_eq_error {removed : Except Failure Unit × Session σ} {failure : Failure} :
    (close m p fault removed).1 = .error failure ↔
      fault = some failure ∨ fault = none ∧ removed.1 = .error failure := by
  obtain ⟨result, t⟩ := removed
  cases fault <;> cases result <;> simp [close]

theorem journal_close {removed : Except Failure Unit × Session σ} :
    (close m p fault removed).2.journal = removed.2.journal := by
  obtain ⟨result, t⟩ := removed
  cases fault <;> cases result <;> rfl

theorem Underway.openings (h : Underway m a s p primary started fault u) :
    openings u.journal = openings s.journal ++ started := by
  obtain ⟨t, hprimary, hwent⟩ := h.went
  rw [hwent.openings, (primary_eq_ok hprimary).1]

theorem Underway.not_leads (h : Underway m a s p primary started fault u) {v : Session σ}
    (hremove : Trial.run (primary.remove m) u = (.ok (), v)) :
    v.disk.leads m.here primary.path = false := by
  obtain ⟨t, hprimary, -⟩ := h.went
  obtain ⟨-, disk, hcreate⟩ := primary_eq_ok hprimary
  exact not_leads_of_removed (Tree.place_ne_nil_of_create hcreate) hremove

theorem Underway.started_prefix (h : Underway m a s p primary started fault u) :
    started ≠ [] ∧ started <+: p.scenarios := by
  obtain ⟨t, -, hwent⟩ := h.went
  exact ⟨hwent.started_ne_nil h.prepared.scenarios_ne_nil, hwent.isPrefix⟩

theorem plan_congr {names : List String} (h : ∀ name, name ∈ names ↔ name ∈ a.scenarios)
    {chosen : List Scenario} (hchosen : Scenario.select a.scenarios = .ok chosen) (disk : Tree) :
    plan m disk { a with scenarios := names } = plan m disk a := by
  have hnames := Scenario.select_congr (fun name => (h name).symm) hchosen
  have hsettings : resolveSettings m disk { a with scenarios := names } =
      resolveSettings m disk a := rfl
  simp only [plan, hsettings, hnames, hchosen]

/-- Scenarios may be named in any order and any number of times. -/
theorem run_congr {names : List String} (h : ∀ name, name ∈ names ↔ name ∈ a.scenarios)
    (hselection : Open m a s .selection) :
    run m { a with scenarios := names } = run m a := by
  obtain ⟨chosen, hchosen⟩ := exists_selected hselection
  simp only [run, plan_congr h hchosen]
  rfl

end Runs

/-- What a run comes to, for any arguments, settings file and client.

The first gate at which something is in the way decides: the run ends with what is in the way there,
and there has been no call, no output and no change of a file. If all gates are open, the chosen
scenarios are started in their declared order, up to the first that fails. The run succeeds exactly
if none of them fails and the primary identity can be removed, of which then nothing is left; its
summary tells all of them. Naming scenarios in another order or more than once makes no
difference. -/
theorem run_wired (m : Machine σ) (a : Arguments) (s : Session σ) :
    (∀ gate outcome, Halt m a s gate outcome →
      (∀ earlier : Gate, earlier.rank < gate.rank → Open m a s earlier) →
        ∃ failure, Trial.run (run m a) s = (.error failure, s) ∧
          ∀ known ∈ outcome, failure = known) ∧
    ((∀ gate, Open m a s gate) →
      ∃ p primary started fault u, Underway m a s p primary started fault u ∧
        started ≠ [] ∧ started <+: p.scenarios ∧ (fault = none → started = p.scenarios) ∧
        openings (Trial.run (run m a) s).2.journal = openings s.journal ++ started ∧
        (∀ passed v, Trial.run (run m a) s = (.ok passed, v) ↔
          passed = p.scenarios ∧ fault = none ∧
            ∃ t, Trial.run (primary.remove m) u = (.ok (), t) ∧ v = summed m passed t) ∧
        (∀ failure, (Trial.run (run m a) s).1 = .error failure ↔
          fault = some failure ∨
            fault = none ∧ (Trial.run (primary.remove m) u).1 = .error failure) ∧
        ∀ t, Trial.run (primary.remove m) u = (.ok (), t) →
          t.disk.leads m.here primary.path = false) ∧
    ∀ names, (∀ name, name ∈ names ↔ name ∈ a.scenarios) → Open m a s .selection →
      Trial.run (run m { a with scenarios := names }) s = Trial.run (run m a) s := by
  refine ⟨fun gate outcome => run_halted, fun hopen => ?_,
    fun names hnames hselection => by rw [run_congr hnames hselection]⟩
  obtain ⟨p, primary, started, fault, u, hunderway, hrun⟩ := exists_underway hopen
  obtain ⟨hsome, hfront⟩ := hunderway.started_prefix
  refine ⟨p, primary, started, fault, u, hunderway, hsome, hfront, ?_, ?_, ?_, ?_, ?_⟩
  · rintro rfl
    obtain ⟨t, -, hwent⟩ := hunderway.went
    exact hwent.all
  · rw [hrun, journal_close, (sameTalk_remove m primary u).journal, hunderway.openings]
  · intro passed v
    rw [hrun, close_eq_ok]
  · intro failure
    rw [hrun, close_eq_error]
  · exact fun t => hunderway.not_leads

/-- Two of the scenarios, the later one named twice. -/
def someScenarios : Arguments where
  reponame := none
  server := none
  username := none
  config := none
  binary := none
  timeout := none
  scenarios := ["root_rotation_test", "basic_repo_test", "root_rotation_test"]
  skipWait := true
  verbose := false
  logFile := none

/-- A scenario that there is not, a program that there is not, and a user without a terminal. -/
def mistyped : Arguments :=
  { someScenarios with
    username := some "user"
    binary := some "nowhere"
    scenarios := ["basic_repo_test", "nope"] }

theorem open_someScenarios (gate : Gate) :
    Open (Main.machine "sample") someScenarios (.start Main.disk 0) gate := by
  intro outcome hhalt
  have hconfigured : Configured (Main.machine "sample") someScenarios Main.disk .default :=
    .default rfl
  cases gate with
  | settings =>
    obtain ⟨failure, hresolve, -⟩ := resolveSettings_of_halt hhalt
    cases hresolve
  | selection =>
    obtain ⟨failure, hselect, -⟩ := select_of_halt hhalt
    cases hselect
  | program =>
    obtain ⟨failure, hresolve, -⟩ := resolve_of_halt hhalt hconfigured
    cases hresolve
  | login =>
    cases hhalt with
    | noTerminal hname htyped => cases hname
    | garbled hname htyped hline => cases hname
  | server =>
    cases hhalt with
    | unreachable _ hwaits => cases hwaits
    | endless _ hwaits => cases hwaits
  | home =>
    obtain ⟨failure, hprimary, -⟩ := primary_of_halt hhalt
    cases hprimary

theorem run_wired_sample :
    Trial.run (run (Main.machine "sample") mistyped) (.start Main.disk 0) =
        (.error (.unknownScenario "nope"), .start Main.disk 0) ∧
      let started := openings
        (Trial.run (run (Main.machine "sample") someScenarios) (.start Main.disk 0)).2.journal
      started ≠ [] ∧ .rootRerotation ∉ started := by
  constructor
  · have hsplit : mistyped.scenarios = ["basic_repo_test"] ++ "nope" :: [] := rfl
    have hunknown : Halt (Main.machine "sample") mistyped (.start Main.disk 0) .selection
        (some (.unknownScenario "nope")) :=
      .unknown hsplit (fun known hknown => ⟨.basicRepo, (List.mem_singleton.1 hknown).symm⟩)
        (fun scenario => by cases scenario <;> decide)
    have hsettings : ∀ earlier : Gate, earlier.rank < Gate.selection.rank →
        Open (Main.machine "sample") mistyped (.start Main.disk 0) earlier := by
      intro earlier hearlier outcome hhalt
      cases earlier
      case settings =>
        obtain ⟨failure, hresolve, -⟩ := resolveSettings_of_halt hhalt
        cases hresolve
      all_goals exact absurd hearlier (by decide)
    obtain ⟨failure, hrun, hknown⟩ := (run_wired _ _ _).1 _ _ hunknown hsettings
    rw [hrun, hknown _ rfl]
  · obtain ⟨p, primary, started, fault, u, hunderway, hsome, hfront, -, hopenings, -⟩ :=
      (run_wired _ _ _).2.1 open_someScenarios
    rw [hopenings]
    refine ⟨hsome, fun hmem => ?_⟩
    have hnamed := (hunderway.prepared.named _).1 (hfront.subset hmem)
    exact absurd hnamed (by decide)

end Program
end TrustTrial
