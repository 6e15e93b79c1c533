import TrustTrial.Program
import TrustTrial.Proofs.Runs

/-!
# TrustTrial.Proofs.Outset

What a run goes through before its first scenario. There are six gates, seen to in the order of
`Gate`, and `Halt` says for each of them, without regard to the others, what is in the way there.
Any number of things can be in the way at once; the first gate at which there is one decides
(`run_halted`), and nothing has happened by then. If there is none, the run is prepared as
`Prepared` says (`exists_prepared`).
-/

namespace TrustTrial

open Disk Trial

variable {σ : Type}

namespace Scenario

theorem mem_all (scenario : Scenario) : scenario ∈ all := by cases scenario <;> decide

theorem named?_eq_none {name : String} :
    named? name = none ↔ ∀ scenario : Scenario, scenario.name ≠ name := by
  simp [named?, List.find?_eq_none, mem_all]

theorem isSome_named? {name : String} :
    (named? name).isSome = true ↔ ∃ scenario : Scenario, scenario.name = name := by
  simp [named?, List.find?_isSome, mem_all]

theorem firstUnknown?_eq_some {names : List String} {name : String} :
    firstUnknown? names = some name ↔
      (∀ scenario : Scenario, scenario.name ≠ name) ∧ ∃ front rest,
        names = front ++ name :: rest ∧ ∀ known ∈ front, ∃ scenario : Scenario,
          scenario.name = known := by
  simp [firstUnknown?, List.find?_eq_some_iff_append, named?_eq_none, isSome_named?]

theorem select_eq_error {names : List String} {failure : Failure} :
    select names = .error failure ↔
      ∃ name, firstUnknown? names = some name ∧ failure = .unknownScenario name := by
  cases names with
  | nil => simp [select, firstUnknown?]
  | cons first rest =>
    rw [select, if_neg (by simp)]
    cases firstUnknown? (first :: rest) <;> simp [eq_comm]

theorem firstUnknown?_eq_none {names : List String} :
    firstUnknown? names = none ↔ ∀ name ∈ names, ∃ scenario : Scenario, scenario.name = name := by
  simp [firstUnknown?, ← isSome_named?, Option.isSome_iff_ne_none]

/-- Of the declared scenarios those that are named, or all of them if none is. -/
theorem select_eq_ok {names : List String} {chosen : List Scenario}
    (h : select names = .ok chosen) :
    (∀ name ∈ names, ∃ scenario : Scenario, scenario.name = name) ∧
      chosen.Sublist all ∧ ∀ scenario, scenario ∈ chosen ↔ names = [] ∨ scenario.name ∈ names := by
  cases names with
  | nil =>
    cases h
    exact ⟨nofun, .refl _, fun scenario => by simp [mem_all]⟩
  | cons first rest =>
    rw [select, if_neg (by simp)] at h
    split at h
    · cases h
    · rename_i hknown
      cases h
      exact ⟨firstUnknown?_eq_none.1 hknown, List.filter_sublist,
        fun scenario => by simp [mem_all]⟩

/-- Order and repetition of names make no difference. -/
theorem select_congr {names others : List String} (h : ∀ name, name ∈ names ↔ name ∈ others)
    {chosen : List Scenario} (hnames : select names = .ok chosen) :
    select others = .ok chosen := by
  have hnil : names.isEmpty = others.isEmpty := by
    rw [Bool.eq_iff_iff, List.isEmpty_iff, List.isEmpty_iff, List.eq_nil_iff_forall_not_mem,
      List.eq_nil_iff_forall_not_mem]
    simp [h]
  rw [select, ← hnil]
  rw [select] at hnames
  split
  · rename_i hempty
    rwa [if_pos hempty] at hnames
  · rename_i hsome
    rw [if_neg hsome] at hnames
    split at hnames
    · cases hnames
    · rename_i hnone
      have hnone' : firstUnknown? others = none := by
        rw [firstUnknown?_eq_none] at hnone ⊢
        exact fun name hname => hnone name ((h name).2 hname)
      have hcontains : ∀ scenario : Scenario,
          names.contains scenario.name = others.contains scenario.name := by
        intro scenario
        rw [Bool.eq_iff_iff, List.contains_iff_mem, List.contains_iff_mem, h]
      simpa only [hnone', hcontains] using hnames

end Scenario

namespace Readiness

/-- A wait that goes on for ever is taken for one that is given up. -/
theorem wait_enough (settings : ReadinessSettings) (server : ServerChoice) (health : Health) :
    wait settings server health (enough settings health) =
      match course settings server health with
      | none => .error (failure settings server)
      | some c => c.result := by
  rw [wait, course]
  cases probe settings health (enough settings health) <;> rfl

end Readiness

namespace Program

/-! ## Gates -/

/-- What is seen to before the first scenario, in this order. -/
inductive Gate where
  | settings
  | selection
  | program
  | login
  | server
  | home
  deriving DecidableEq, Repr

namespace Gate

def rank : Gate → Nat
  | .settings => 0
  | .selection => 1
  | .program => 2
  | .login => 3
  | .server => 4
  | .home => 5

end Gate

section Gates

variable (m : Machine σ) (a : Arguments)

/-- The settings file that is read: the one that is named, or the usual one if it is there. -/
def settingsFile? (disk : Tree) : Option String :=
  match a.config with
  | some path => some path
  | none => m.defaultSettings.filter (disk.leads m.here)

/-- The settings of a run. The command line goes before the file. -/
inductive Configured (disk : Tree) : Settings → Prop where
  | told {path text : String} {settings : Settings} :
      settingsFile? m a disk = some path → disk.readText m.here path = .ok text →
      Settings.read text = .ok settings → Configured disk (override settings a)
  | default : settingsFile? m a disk = none → Configured disk (override .default a)

def serverOf (settings : Settings) : ServerChoice :=
  .ofText a.server settings.readiness.defaultServer

/-- The password that is typed at the terminal: a line that is text, without its end. -/
def password? : Option String := m.typed.bind fun typed => Text.lineText (Text.cutLine typed).1

/-- The credentials of a run: the password is typed for the user that is named. -/
def credentialsOf : Option Credentials :=
  (namedRepo? a.username).bind fun name => (password? m).map fun password => ⟨name, password⟩

/-- What is in the way at a gate, with the failure that it leads to; no failure for a wait that
never ends. -/
inductive Halt (s : Session σ) : Gate → Option Failure → Prop where
  | unreadable {path : String} {fault : Fault} :
      settingsFile? m a s.disk = some path → s.disk.readText m.here path = .error fault →
      Halt s .settings (some (.file path (.unreadable fault)))
  | invalid {path text : String} {failure : Failure} :
      settingsFile? m a s.disk = some path → s.disk.readText m.here path = .ok text →
      Settings.read text = .error failure → Halt s .settings (some failure)
  | unknown {front rest : List String} {name : String} :
      a.scenarios = front ++ name :: rest →
      (∀ known ∈ front, ∃ scenario : Scenario, scenario.name = known) →
      (∀ scenario : Scenario, scenario.name ≠ name) →
      Halt s .selection (some (.unknownScenario name))
  | notFound {settings : Settings} :
      Configured m a s.disk settings → Path.isBare settings.client.binary = true →
      (Path.hasSlash settings.client.binary = true ∨ ∀ dir ∈ m.searchPath,
        s.disk.isProgram m.here (Path.join dir settings.client.binary) = false) →
      Halt s .program (some (.notFound settings.client.binary))
  | noTerminal {name : String} :
      namedRepo? a.username = some name → m.typed = none →
      Halt s .login (some (.system .noTerminal))
  | garbled {name : String} {typed : List UInt8} :
      namedRepo? a.username = some name → m.typed = some typed →
      Text.lineText (Text.cutLine typed).1 = none →
      Halt s .login (some (.system .notText))
  | unreachable {settings : Settings} {c : Readiness.Course} {failure : Failure} :
      Configured m a s.disk settings → a.skipWait = false →
      Readiness.course settings.readiness (serverOf a settings) m.health = some c →
      c.result = .error failure → Halt s .server (some failure)
  | endless {settings : Settings} :
      Configured m a s.disk settings → a.skipWait = false →
      Readiness.course settings.readiness (serverOf a settings) m.health = none →
      Halt s .server none
  | homeless {fault : Fault} :
      s.disk.create m.here (entryPath m "_main" s.temps) .directory = .error fault →
      Halt s .home (some (.system (.at (entryPath m "_main" s.temps) fault)))

/-- A run whose gates before the wait are open. -/
structure Prepared (disk : Tree) (p : Plan) : Prop where
  configured : Configured m a disk p.settings
  known : ∀ name ∈ a.scenarios, ∃ scenario : Scenario, scenario.name = name
  declared : p.scenarios.Sublist Scenario.all
  named : ∀ scenario, scenario ∈ p.scenarios ↔ a.scenarios = [] ∨ scenario.name ∈ a.scenarios
  repo : p.repo = (namedRepo? a.reponame).getD m.freshName
  binary : Runner.resolve m disk p.settings.client.binary = .ok p.runner.binary
  server : p.runner.server = serverOf a p.settings
  localConfig : p.runner.localConfig = p.settings.client.localConfig
  passphrases : p.runner.passphrases = p.settings.passphrases
  credentials : p.runner.credentials = credentialsOf m a

end Gates

/-- A gate at which nothing is in the way. -/
def Open (m : Machine σ) (a : Arguments) (s : Session σ) (gate : Gate) : Prop :=
  ∀ outcome, ¬Halt m a s gate outcome

/-! ## What each gate comes to -/

section Passing

variable {m : Machine σ} {a : Arguments} {s : Session σ} {disk : Tree} {settings : Settings}
  {failure : Failure} {outcome : Option Failure} {p : Plan}

theorem fileSettings_eq : fileSettings m disk a.config =
    match settingsFile? m a disk with
    | none => .ok .default
    | some path => loadSettings disk m.here path := by
  rw [settingsFile?]
  cases a.config with
  | some path => rfl
  | none =>
    cases hdefault : m.defaultSettings with
    | none => simp [fileSettings, hdefault]
    | some path =>
      cases hleads : disk.leads m.here path <;>
        simp [fileSettings, hdefault, hleads, Option.filter_some]

theorem Configured.resolve (h : Configured m a disk settings) :
    resolveSettings m disk a = .ok settings := by
  rw [resolveSettings, fileSettings_eq]
  rcases h with ⟨hfile, htext, hread⟩ | hfile
  · simp only [hfile, loadSettings, htext, hread]
  · simp only [hfile]

theorem Configured.unique {other : Settings} (h : Configured m a disk settings)
    (h' : Configured m a disk other) : settings = other :=
  Except.ok.inj (h.resolve.symm.trans h'.resolve)

theorem exists_configured (h : Open m a s .settings) :
    ∃ settings, Configured m a s.disk settings := by
  cases hfile : settingsFile? m a s.disk with
  | none => exact ⟨_, .default hfile⟩
  | some path =>
    cases htext : s.disk.readText m.here path with
    | error fault => exact absurd (.unreadable hfile htext) (h _)
    | ok text =>
      cases hread : Settings.read text with
      | error failure => exact absurd (.invalid hfile htext hread) (h _)
      | ok settings => exact ⟨_, .told hfile htext hread⟩

theorem resolveSettings_of_halt (h : Halt m a s .settings outcome) :
    ∃ failure, resolveSettings m s.disk a = .error failure ∧ outcome = some failure := by
  rw [resolveSettings, fileSettings_eq]
  cases h with
  | unreadable hfile htext =>
    simp only [hfile, loadSettings, htext]
    exact ⟨_, rfl, rfl⟩
  | invalid hfile htext hread =>
    simp only [hfile, loadSettings, htext, hread]
    exact ⟨_, rfl, rfl⟩

theorem exists_selected (h : Open m a s .selection) :
    ∃ chosen, Scenario.select a.scenarios = .ok chosen := by
  cases hselect : Scenario.select a.scenarios with
  | ok chosen => exact ⟨chosen, rfl⟩
  | error failure =>
    obtain ⟨name, hunknown, -⟩ := Scenario.select_eq_error.1 hselect
    obtain ⟨hname, front, rest, hsplit, hfront⟩ := Scenario.firstUnknown?_eq_some.1 hunknown
    exact absurd (.unknown hsplit hfront hname) (h _)

theorem select_of_halt (h : Halt m a s .selection outcome) :
    ∃ failure, Scenario.select a.scenarios = .error failure ∧ outcome = some failure := by
  cases h with
  | unknown hsplit hfront hname =>
    have hunknown := Scenario.firstUnknown?_eq_some.2 ⟨hname, _, _, hsplit, hfront⟩
    exact ⟨_, Scenario.select_eq_error.2 ⟨_, hunknown, rfl⟩, rfl⟩

/-- A program is not found if it is a bare name that is nowhere on the search path. -/
theorem resolve_eq_error {binary : String} :
    Runner.resolve m disk binary = .error failure ↔
      Path.isBare binary = true ∧ (Path.hasSlash binary = true ∨
        ∀ dir ∈ m.searchPath, disk.isProgram m.here (Path.join dir binary) = false) ∧
          failure = .notFound binary := by
  rw [Runner.resolve]
  split
  · rename_i hbare
    split
    · rename_i hslash
      simp only [hbare, hslash, true_or, true_and, Except.error.injEq, eq_comm]
    · rename_i hslash
      have hnone : m.findProgram disk binary = none ↔
          ∀ dir ∈ m.searchPath, disk.isProgram m.here (Path.join dir binary) = false := by
        simp [Machine.findProgram]
      rw [← hnone]
      cases m.findProgram disk binary with
      | none => simp only [hbare, or_true, true_and, Except.error.injEq, eq_comm]
      | some program => simp [hslash]
  · rename_i hbare
    simp [hbare]

theorem exists_resolved (h : Open m a s .program) (hsettings : Configured m a s.disk settings) :
    ∃ binary, Runner.resolve m s.disk settings.client.binary = .ok binary := by
  cases hresolve : Runner.resolve m s.disk settings.client.binary with
  | ok binary => exact ⟨binary, rfl⟩
  | error failure =>
    obtain ⟨hbare, hmissing, -⟩ := resolve_eq_error.1 hresolve
    exact absurd (.notFound hsettings hbare hmissing) (h _)

theorem resolve_of_halt (h : Halt m a s .program outcome)
    (hsettings : Configured m a s.disk settings) :
    ∃ failure, Runner.resolve m s.disk settings.client.binary = .error failure ∧
      outcome = some failure := by
  cases h with
  | notFound hconfigured hbare hmissing =>
    rw [hsettings.unique hconfigured]
    exact ⟨_, resolve_eq_error.2 ⟨hbare, hmissing, rfl⟩, rfl⟩

theorem withLogin_of_open (h : Open m a s .login) {r : Runner} (hr : r.credentials = none) :
    withLogin m r a.username = .ok { r with credentials := credentialsOf m a } := by
  rw [withLogin, credentialsOf, password?]
  cases hname : namedRepo? a.username with
  | none => rw [Option.bind_none, ← hr]
  | some name =>
    cases htyped : m.typed with
    | none => exact absurd (.noTerminal hname htyped) (h _)
    | some typed =>
      cases hline : Text.lineText (Text.cutLine typed).1 with
      | none => exact absurd (.garbled hname htyped hline) (h _)
      | some password => simp only [Option.bind_some, Option.map_some, hline]

theorem withLogin_of_halt (h : Halt m a s .login outcome) :
    ∃ failure, (∀ r, withLogin m r a.username = .error failure) ∧ outcome = some failure := by
  cases h with
  | noTerminal hname htyped => exact ⟨_, fun r => by simp only [withLogin, hname, htyped], rfl⟩
  | garbled hname htyped hline =>
    exact ⟨_, fun r => by simp only [withLogin, hname, htyped, hline], rfl⟩

theorem exists_primary (h : Open m a s .home) :
    ∃ primary t, Trial.run (TrustDir.primary m) s = (.ok primary, t) := by
  cases hcreate : s.disk.create m.here (entryPath m "_main" s.temps) .directory with
  | error fault => exact absurd (.homeless hcreate) (h _)
  | ok disk =>
    simp only [TrustDir.primary, run_create, String.reduceAppend, run_makeTemp_of_ok hcreate]
    exact ⟨_, _, rfl⟩

theorem primary_of_halt (h : Halt m a s .home outcome) :
    ∃ failure, Trial.run (TrustDir.primary m) s = (.error failure, s) ∧
      outcome = some failure := by
  cases h with
  | homeless hcreate =>
    simp only [TrustDir.primary, run_create, String.reduceAppend, run_makeTemp_of_error hcreate]
    exact ⟨_, rfl, rfl⟩

/-! ## From gate to gate -/

/-- The gates before the wait. -/
theorem exists_prepared (hsettings : Open m a s .settings) (hselection : Open m a s .selection)
    (hprogram : Open m a s .program) (hlogin : Open m a s .login) :
    ∃ p, plan m s.disk a = .ok p ∧ Prepared m a s.disk p := by
  obtain ⟨settings, hconfigured⟩ := exists_configured hsettings
  obtain ⟨chosen, hchosen⟩ := exists_selected hselection
  obtain ⟨binary, hbinary⟩ := exists_resolved hprogram hconfigured
  obtain ⟨hknown, hdeclared, hnamed⟩ := Scenario.select_eq_ok hchosen
  let created : Runner := ⟨binary, serverOf a settings, settings.client.localConfig,
    settings.passphrases, none, true⟩
  have hcreate : Runner.create m s.disk settings.client
      (.ofText a.server settings.readiness.defaultServer) settings.passphrases = .ok created := by
    rw [Runner.create, hbinary]
    rfl
  refine ⟨⟨settings, chosen, (namedRepo? a.reponame).getD m.freshName,
    { created with credentials := credentialsOf m a }⟩, ?_, ?_⟩
  · simp only [plan, hconfigured.resolve, hchosen, hcreate,
      withLogin_of_open hlogin (r := created) rfl]
  · exact ⟨hconfigured, hknown, hdeclared, hnamed, rfl, hbinary, rfl, rfl, rfl, rfl⟩

theorem awaitServer_eq (h : Prepared m a disk p) : awaitServer m a p =
    if a.skipWait then .ok () else
      match Readiness.course p.settings.readiness (serverOf a p.settings) m.health with
      | none => .error (Readiness.failure p.settings.readiness (serverOf a p.settings))
      | some c => c.result := by
  rw [awaitServer, Readiness.wait_enough, h.server]

theorem awaitServer_of_open (h : Prepared m a s.disk p) (hserver : Open m a s .server) :
    awaitServer m a p = .ok () := by
  rw [awaitServer_eq h]
  split
  · rfl
  · rename_i hskip
    have hwaits : a.skipWait = false := Bool.eq_false_iff.2 hskip
    split
    · rename_i hcourse
      exact absurd (.endless h.configured hwaits hcourse) (hserver none)
    · rename_i c hcourse
      cases hresult : c.result with
      | ok => rfl
      | error failure =>
        exact absurd (.unreachable h.configured hwaits hcourse hresult) (hserver (some failure))

theorem awaitServer_of_halt (h : Prepared m a s.disk p) (hhalt : Halt m a s .server outcome) :
    ∃ failure, awaitServer m a p = .error failure ∧ ∀ known ∈ outcome, failure = known := by
  rw [awaitServer_eq h]
  cases hhalt with
  | unreachable hsettings hwaits hcourse hresult =>
    rw [h.configured.unique hsettings, if_neg (Bool.eq_false_iff.1 hwaits), hcourse]
    exact ⟨_, hresult, fun _ => Option.some.inj⟩
  | endless hsettings hwaits hcourse =>
    rw [h.configured.unique hsettings, if_neg (Bool.eq_false_iff.1 hwaits), hcourse]
    exact ⟨_, rfl, nofun⟩

/-! ## Runs -/

/-- The session of a run that has passed, with the summary of its scenarios. -/
def summed (m : Machine σ) (passed : List Scenario) (s : Session σ) : Session σ :=
  { s with
    printed :=
      s.printed ++ (Text.paint m.colored .boldGreen "✓" ++ " " ++ toString passed.length ++
        " scenario(s) passed: " ++ ", ".intercalate (passed.map Scenario.name)) ++ "\n" }

theorem run_of_plan_error (h : plan m s.disk a = .error failure) :
    Trial.run (run m a) s = (.error failure, s) := by
  rw [run, run_bind, run_look, h]

theorem run_of_await_error (hp : plan m s.disk a = .ok p) (h : awaitServer m a p = .error failure) :
    Trial.run (run m a) s = (.error failure, s) := by
  rw [run, run_bind, run_look, hp]
  dsimp only
  rw [run_bind, run_ofExcept, h]

theorem run_of_ready (hp : plan m s.disk a = .ok p) (h : awaitServer m a p = .ok ()) :
    Trial.run (run m a) s =
      match Trial.run (runAll m p.runner p.repo p.scenarios) s with
      | (.error failure, t) => (.error failure, t)
      | (.ok passed, t) => (.ok passed, summed m passed t) := by
  rw [run, run_bind, run_look, hp]
  dsimp only
  rw [run_bind, run_ofExcept, h]
  dsimp only
  rw [run_bind]
  rcases Trial.run (runAll m p.runner p.repo p.scenarios) s with ⟨_ | _, t⟩ <;> rfl

/-- What is in the way at the first gate that is not open ends a run, and leaves the session as it
was. -/
theorem run_halted {gate : Gate} (hhalt : Halt m a s gate outcome)
    (hearlier : ∀ earlier : Gate, earlier.rank < gate.rank → Open m a s earlier) :
    ∃ failure, Trial.run (run m a) s = (.error failure, s) ∧
      ∀ known ∈ outcome, failure = known := by
  cases gate with
  | settings =>
    obtain ⟨failure, hresolve, rfl⟩ := resolveSettings_of_halt hhalt
    refine ⟨failure, run_of_plan_error ?_, fun _ => Option.some.inj⟩
    rw [plan, hresolve]
  | selection =>
    obtain ⟨settings, hsettings⟩ := exists_configured (hearlier .settings (by decide))
    obtain ⟨failure, hselect, rfl⟩ := select_of_halt hhalt
    refine ⟨failure, run_of_plan_error ?_, fun _ => Option.some.inj⟩
    simp only [plan, hsettings.resolve, hselect]
  | program =>
    obtain ⟨settings, hsettings⟩ := exists_configured (hearlier .settings (by decide))
    obtain ⟨chosen, hchosen⟩ := exists_selected (hearlier .selection (by decide))
    obtain ⟨failure, hresolve, rfl⟩ := resolve_of_halt hhalt hsettings
    refine ⟨failure, run_of_plan_error ?_, fun _ => Option.some.inj⟩
    simp only [plan, hsettings.resolve, hchosen, Runner.create, hresolve]
  | login =>
    obtain ⟨settings, hsettings⟩ := exists_configured (hearlier .settings (by decide))
    obtain ⟨chosen, hchosen⟩ := exists_selected (hearlier .selection (by decide))
    obtain ⟨binary, hbinary⟩ := exists_resolved (hearlier .program (by decide)) hsettings
    obtain ⟨failure, hlogin, rfl⟩ := withLogin_of_halt hhalt
    refine ⟨failure, run_of_plan_error ?_, fun _ => Option.some.inj⟩
    simp only [plan, hsettings.resolve, hchosen, Runner.create, hbinary, hlogin]
  | server =>
    obtain ⟨p, hp, hprepared⟩ := exists_prepared (hearlier .settings (by decide))
      (hearlier .selection (by decide)) (hearlier .program (by decide))
      (hearlier .login (by decide))
    obtain ⟨failure, hawait, hknown⟩ := awaitServer_of_halt hprepared hhalt
    exact ⟨failure, run_of_await_error hp hawait, hknown⟩
  | home =>
    obtain ⟨p, hp, hprepared⟩ := exists_prepared (hearlier .settings (by decide))
      (hearlier .selection (by decide)) (hearlier .program (by decide))
      (hearlier .login (by decide))
    have hawait := awaitServer_of_open hprepared (hearlier .server (by decide))
    obtain ⟨failure, hprimary, rfl⟩ := primary_of_halt hhalt
    refine ⟨failure, ?_, fun _ => Option.some.inj⟩
    rw [run_of_ready hp hawait, run_runAll, hprimary]

end Passing

end Program
end TrustTrial
