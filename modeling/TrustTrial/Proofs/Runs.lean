import TrustTrial.Proofs.Script

/-!
# TrustTrial.Proofs.Runs

How a trial is put together from set-ups, bodies and clean-ups: what each part does to the session,
and equations that say which failure a scenario and a whole trial report.
-/

namespace TrustTrial
namespace Trial

variable {σ : Type}

/-- Nothing was said to the client, and no temporary entry was made. -/
structure SameTalk (s t : Session σ) : Prop where
  client : t.client = s.client
  temps : t.temps = s.temps
  journal : t.journal = s.journal

theorem SameTalk.refl (s : Session σ) : SameTalk s s := ⟨rfl, rfl, rfl⟩

theorem SameTalk.trans {s t u : Session σ} (h₁ : SameTalk s t) (h₂ : SameTalk t u) :
    SameTalk s u :=
  ⟨h₂.client.trans h₁.client, h₂.temps.trans h₁.temps, h₂.journal.trans h₁.journal⟩

/-! ## Temporary entries -/

theorem nextTemp_eq (m : Machine σ) (ending : String) (s : Session σ) :
    nextTemp m ending s = entryPath m ending s.temps := rfl

theorem run_makeTemp_of_ok {m : Machine σ} {ending : String} {node : Disk.Node} {s : Session σ}
    {disk : Disk.Tree}
    (h : s.disk.create m.here (entryPath m ending s.temps) node = .ok disk) :
    run (makeTemp m ending node) s =
      (.ok (entryPath m ending s.temps), { s with disk := disk, temps := s.temps + 1 }) := by
  unfold run makeTemp
  rw [nextTemp_eq]
  dsimp only
  rw [h]

theorem run_makeTemp_of_error {m : Machine σ} {ending : String} {node : Disk.Node}
    {s : Session σ} {fault : Disk.Fault}
    (h : s.disk.create m.here (entryPath m ending s.temps) node = .error fault) :
    run (makeTemp m ending node) s =
      (.error (.system (.at (entryPath m ending s.temps) fault)), s) := by
  unfold run makeTemp
  rw [nextTemp_eq]
  dsimp only
  rw [h]

theorem run_create (m : Machine σ) (label : String) (s : Session σ) :
    run (TrustDir.create m label) s =
      match run (makeTemp m ("_" ++ label) .directory) s with
      | (.error failure, t) => (.error failure, t)
      | (.ok path, t) => (.ok ⟨label, path⟩, t) := by
  simp only [TrustDir.create, run_bind, run_pure]
  rcases run (makeTemp m ("_" ++ label) .directory) s with ⟨failure | path, t⟩ <;> rfl

theorem run_clear (path : String) (removal : Disk.Tree → Except Disk.Fault Disk.Tree)
    (s : Session σ) :
    run (clear path removal) s =
      match removal s.disk with
      | .error fault => (if fault.isMissing then .ok () else .error (.system (.at path fault)), s)
      | .ok disk => (.ok (), { s with disk := disk }) := rfl

theorem sameTalk_clear (path : String) (removal : Disk.Tree → Except Disk.Fault Disk.Tree)
    (s : Session σ) : SameTalk s (run (clear path removal) s).2 := by
  rw [run_clear]
  split <;> exact ⟨rfl, rfl, rfl⟩

theorem sameTalk_removePayload (m : Machine σ) (path : String) (s : Session σ) :
    SameTalk s (run (removePayload m path) s).2 := sameTalk_clear _ _ _

theorem sameTalk_remove (m : Machine σ) (d : TrustDir) (s : Session σ) :
    SameTalk s (run (d.remove m) s).2 := sameTalk_clear _ _ _

/-! ## Set-up and clean-up -/

/-- What a scenario gets for itself when `n` temporary entries have been made before. -/
def standFrom (m : Machine σ) (n : Nat) : Stand :=
  ⟨entryPath m "" n, ⟨"temp", entryPath m "_temp" (n + 1)⟩⟩

theorem run_setUp (m : Machine σ) (scenario : Scenario) (s : Session σ) :
    run (setUp m scenario) s =
      match run (writePayload m scenario.name) s with
      | (.error failure, t) => (.error failure, t)
      | (.ok payload, t) =>
        match run (TrustDir.secondary m) t with
        | (.error failure, u) => (.error failure, (run (removePayload m payload) u).2)
        | (.ok secondary, u) => (.ok ⟨payload, secondary⟩, u) := by
  simp only [setUp, run_bind, run_attempt]
  rcases run (writePayload m scenario.name) s with ⟨failure | payload, t⟩
  · rfl
  · dsimp only
    rcases run (TrustDir.secondary m) t with ⟨failure | secondary, u⟩ <;> rfl

/-- A set-up says nothing to the client; if it succeeds, two entries are made. -/
theorem setUp_cases {m : Machine σ} {scenario : Scenario} {s t : Session σ}
    {result : Except Failure Stand} (h : run (setUp m scenario) s = (result, t)) :
    t.client = s.client ∧ t.journal = s.journal ∧
      ((∃ failure, result = .error failure) ∨
        result = .ok (standFrom m s.temps) ∧ t.temps = s.temps + 2) := by
  simp only [run_setUp, writePayload, TrustDir.secondary, run_create] at h
  cases hpayload : s.disk.create m.here (entryPath m "" s.temps)
      (.file scenario.name.toUTF8 false) with
  | error fault =>
    simp only [run_makeTemp_of_error hpayload, Prod.mk.injEq] at h
    obtain ⟨rfl, rfl⟩ := h
    exact ⟨rfl, rfl, .inl ⟨_, rfl⟩⟩
  | ok disk =>
    simp only [run_makeTemp_of_ok hpayload, String.reduceAppend] at h
    cases hdir : disk.create m.here (entryPath m "_temp" (s.temps + 1)) .directory with
    | error fault =>
      rw [run_makeTemp_of_error (by exact hdir)] at h
      simp only [Prod.mk.injEq] at h
      obtain ⟨rfl, rfl⟩ := h
      have ht := sameTalk_removePayload m (entryPath m "" s.temps)
        { s with disk := disk, temps := s.temps + 1 }
      exact ⟨ht.client, ht.journal, .inl ⟨_, rfl⟩⟩
    | ok disk' =>
      rw [run_makeTemp_of_ok (by exact hdir)] at h
      simp only [Prod.mk.injEq] at h
      obtain ⟨rfl, rfl⟩ := h
      exact ⟨rfl, rfl, .inr ⟨rfl, rfl⟩⟩

theorem run_cleanUp (m : Machine σ) (stand : Stand) (s : Session σ) :
    run (cleanUp m stand) s =
      let payloadGone := run (removePayload m stand.payload) s
      let secondaryGone := run (stand.secondary.remove m) payloadGone.2
      (match payloadGone.1 with
        | .error failure => .error failure
        | .ok () => secondaryGone.1, secondaryGone.2) := by
  simp only [cleanUp, run_bind, run_attempt, run_ofExcept]
  rcases run (removePayload m stand.payload) s with ⟨failure | _, t⟩ <;> rfl

theorem sameTalk_cleanUp (m : Machine σ) (stand : Stand) (s : Session σ) :
    SameTalk s (run (cleanUp m stand) s).2 := by
  rw [run_cleanUp]
  exact (sameTalk_removePayload _ _ _).trans (sameTalk_remove _ _ _)

/-! ## Scenarios -/

/-- The session of a scenario that is about to be set up. -/
def opened (m : Machine σ) (scenario : Scenario) (s : Session σ) : Session σ :=
  { s with
    printed :=
      s.printed ++ ("\n" ++ Text.paint m.colored .boldBlue "Running Test:" ++ " " ++
        Text.paint m.colored .boldWhite scenario.name) ++ "\n" ++
        ("  " ++ Text.paint m.colored .dimmed scenario.description) ++ "\n"
    journal := s.journal ++ [.began scenario] }

/-- The session of a scenario that has passed. -/
def passed (m : Machine σ) (s : Session σ) : Session σ :=
  { s with
    printed :=
      s.printed ++ ("\n" ++ Text.paint m.colored .boldGreen "✓" ++ " " ++
        Text.paint m.colored .boldGreen "Test Passed" ++ "\n") ++ "\n" }

@[simp] theorem opened_temps (m : Machine σ) (scenario : Scenario) (s : Session σ) :
    (opened m scenario s).temps = s.temps := rfl

@[simp] theorem opened_journal (m : Machine σ) (scenario : Scenario) (s : Session σ) :
    (opened m scenario s).journal = s.journal ++ [.began scenario] := rfl

theorem sameTalk_passed (m : Machine σ) (s : Session σ) : SameTalk s (passed m s) :=
  ⟨rfl, rfl, rfl⟩

/-- The failure of a body counts before that of the clean-up, and both are tried. -/
theorem run_runScenario (m : Machine σ) (site : Site) (history : RootHistory)
    (scenario : Scenario) (s : Session σ) :
    run (runScenario m site history scenario) s =
      match run (setUp m scenario) (opened m scenario s) with
      | (.error failure, t) => (.error failure, t)
      | (.ok stand, t) =>
        let ended := run (body m site stand history scenario) t
        let cleaned := run (cleanUp m stand) ended.2
        match ended.1, cleaned.1 with
        | .error failure, _ => (.error failure, cleaned.2)
        | .ok _, .error failure => (.error failure, cleaned.2)
        | .ok history, .ok () => (.ok history, passed m cleaned.2) := by
  simp only [runScenario, run_bind, run_note, run_say, run_attempt, run_ofExcept, opened,
    Session.note]
  rcases run (setUp m scenario) _ with ⟨failure | stand, t⟩
  · rfl
  · dsimp only
    rcases run (body m site stand history scenario) t with ⟨failure | history, u⟩
    · rfl
    · dsimp only
      rcases run (cleanUp m stand) u with ⟨failure | _, v⟩ <;> rfl

/-- A scenario that passes has passed in all its parts. -/
theorem run_runScenario_ok {m : Machine σ} {site : Site} {history history' : RootHistory}
    {scenario : Scenario} {s t : Session σ}
    (h : run (runScenario m site history scenario) s = (.ok history', t)) :
    ∃ stand u v w, run (setUp m scenario) (opened m scenario s) = (.ok stand, u) ∧
      run (body m site stand history scenario) u = (.ok history', v) ∧
      run (cleanUp m stand) v = (.ok (), w) ∧ t = passed m w := by
  rw [run_runScenario] at h
  rcases hset : run (setUp m scenario) (opened m scenario s) with ⟨failure | stand, u⟩
  · rw [hset] at h
    cases h
  · rcases hbody : run (body m site stand history scenario) u with ⟨failure | ended, v⟩
    · simp only [hset, hbody] at h
      cases h
    · rcases hclean : run (cleanUp m stand) v with ⟨failure | _, w⟩
      all_goals
        simp only [hset, hbody, hclean] at h
        cases h
      exact ⟨stand, u, v, w, rfl, hbody, hclean, rfl⟩

theorem run_runEach_nil (m : Machine σ) (site : Site) (history : RootHistory)
    (passed : List Scenario) (s : Session σ) :
    run (runEach m site history passed []) s = (.ok passed, s) := rfl

/-- The session of a trial in which a scenario has failed. -/
def reported (m : Machine σ) (scenario : Scenario) (failure : Failure) (s : Session σ) :
    Session σ :=
  { s with
    printed :=
      s.printed ++ ("  " ++ Text.paint m.colored .red "✗" ++ " " ++ scenario.name ++ ": " ++
        failure.message) ++ "\n" }

@[simp] theorem reported_disk (m : Machine σ) (scenario : Scenario) (failure : Failure)
    (s : Session σ) : (reported m scenario failure s).disk = s.disk := rfl

@[simp] theorem reported_journal (m : Machine σ) (scenario : Scenario) (failure : Failure)
    (s : Session σ) : (reported m scenario failure s).journal = s.journal := rfl

theorem run_runEach_cons (m : Machine σ) (site : Site) (history : RootHistory)
    (passed : List Scenario) (scenario : Scenario) (scenarios : List Scenario) (s : Session σ) :
    run (runEach m site history passed (scenario :: scenarios)) s =
      match run (runScenario m site history scenario) s with
      | (.error failure, t) => (.error failure, reported m scenario failure t)
      | (.ok history, t) => run (runEach m site history (passed ++ [scenario]) scenarios) t := by
  simp only [runEach, run_bind, run_attempt]
  rcases run (runScenario m site history scenario) s with ⟨failure | history, t⟩ <;> rfl

/-- Scenarios that pass are collected in their order. -/
theorem run_runEach_ok {m : Machine σ} {site : Site} {history : RootHistory}
    {before scenarios passed : List Scenario} {s t : Session σ}
    (h : run (runEach m site history before scenarios) s = (.ok passed, t)) :
    passed = before ++ scenarios := by
  induction scenarios generalizing history before s with
  | nil =>
    cases h
    exact (List.append_nil passed).symm
  | cons scenario scenarios ih =>
    rw [run_runEach_cons] at h
    rcases hrun : run (runScenario m site history scenario) s with ⟨failure | later, u⟩
    all_goals simp only [hrun] at h
    · cases h
    · rw [ih h, List.append_assoc, List.singleton_append]

/-- The failure of a scenario counts before that of the last removal. -/
theorem run_runAll (m : Machine σ) (r : Runner) (repo : String) (scenarios : List Scenario)
    (s : Session σ) :
    run (runAll m r repo scenarios) s =
      match run (TrustDir.primary m) s with
      | (.error failure, t) => (.error failure, t)
      | (.ok primary, t) =>
        let ended := run (runEach m ⟨r, repo, primary⟩ .empty [] scenarios) t
        let cleaned := run (primary.remove m) ended.2
        match ended.1, cleaned.1 with
        | .error failure, _ => (.error failure, cleaned.2)
        | .ok _, .error failure => (.error failure, cleaned.2)
        | .ok passed, .ok () => (.ok passed, cleaned.2) := by
  simp only [runAll, run_bind, run_attempt, run_ofExcept, run_pure]
  rcases run (TrustDir.primary m) s with ⟨failure | primary, t⟩
  · rfl
  · dsimp only
    rcases run (runEach m ⟨r, repo, primary⟩ .empty [] scenarios) t with ⟨failure | _, u⟩
    · rfl
    · dsimp only
      rcases run (primary.remove m) u with ⟨failure | _, v⟩ <;> rfl

/-- A trial that passes has passed in all its parts. -/
theorem run_runAll_ok {m : Machine σ} {r : Runner} {repo : String}
    {scenarios passed : List Scenario} {s t : Session σ}
    (h : run (runAll m r repo scenarios) s = (.ok passed, t)) :
    ∃ primary u v, run (TrustDir.primary m) s = (.ok primary, u) ∧
      run (runEach m ⟨r, repo, primary⟩ .empty [] scenarios) u = (.ok passed, v) ∧
      run (primary.remove m) v = (.ok (), t) ∧ passed = scenarios := by
  rw [run_runAll] at h
  rcases hprimary : run (TrustDir.primary m) s with ⟨failure | primary, u⟩
  · rw [hprimary] at h
    cases h
  · rcases hrun : run (runEach m ⟨r, repo, primary⟩ .empty [] scenarios) u with ⟨failure | _, v⟩
    · simp only [hprimary, hrun] at h
      cases h
    · rcases hremove : run (primary.remove m) v with ⟨failure | _, w⟩
      all_goals
        simp only [hprimary, hrun, hremove] at h
        cases h
      exact ⟨primary, u, v, rfl, hrun, hremove, run_runEach_ok hrun⟩

/-- The first entry of a trial is the primary identity. -/
theorem primary_cases {m : Machine σ} {disk : Disk.Tree} {c : σ} {t : Session σ}
    {result : Except Failure TrustDir}
    (h : run (TrustDir.primary m) (Session.start disk c) = (result, t)) :
    t.client = c ∧ t.journal = [] ∧
      ((∃ failure, result = .error failure) ∨ result = .ok (primaryOf m) ∧ t.temps = 1) := by
  simp only [TrustDir.primary, run_create, String.reduceAppend] at h
  cases hdir : disk.create m.here (entryPath m "_main" 0) .directory with
  | error fault =>
    rw [run_makeTemp_of_error (by exact hdir)] at h
    simp only [Prod.mk.injEq] at h
    obtain ⟨rfl, rfl⟩ := h
    exact ⟨rfl, rfl, .inl ⟨_, rfl⟩⟩
  | ok disk' =>
    rw [run_makeTemp_of_ok (by exact hdir)] at h
    simp only [Prod.mk.injEq] at h
    obtain ⟨rfl, rfl⟩ := h
    exact ⟨rfl, rfl, .inr ⟨rfl, rfl⟩⟩

end Trial
end TrustTrial
