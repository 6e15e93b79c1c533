import TrustTrial.Selection
import TrustTrial.Settings.Reader
import TrustTrial.Text.Line
import TrustTrial.Trial
import TrustTrial.Usage

/-!
# TrustTrial.Program

A trial from its command line: settings, the choice of scenarios, repository and server, waiting
for the server, and the run. Everything that can fail before the first scenario fails without a
call of the client.
-/

namespace TrustTrial
namespace Program

open Disk

variable {σ : Type}

/-! ## Settings -/

def loadSettings (disk : Tree) (here : Location) (path : String) : Except Failure Settings :=
  match disk.readText here path with
  | .error fault => .error (.file path (.unreadable fault))
  | .ok text => Settings.read text

/-- The settings of the named file, or of the default one if it is there, or else the defaults. -/
def fileSettings (m : Machine σ) (disk : Tree) : Option String → Except Failure Settings
  | some path => loadSettings disk m.here path
  | none =>
    match m.defaultSettings with
    | none => .ok .default
    | some path =>
      if disk.leads m.here path then loadSettings disk m.here path else .ok .default

/-- What the command line says goes before what the file says. -/
def override (settings : Settings) (a : Arguments) : Settings :=
  let client := match a.binary with
    | none => settings.client
    | some binary => { settings.client with binary := binary }
  let readiness := match a.timeout with
    | none => settings.readiness
    | some timeout => { settings.readiness with timeout := timeout }
  { settings with client := client, readiness := readiness }

def resolveSettings (m : Machine σ) (disk : Tree) (a : Arguments) : Except Failure Settings :=
  match fileSettings m disk a.config with
  | .error failure => .error failure
  | .ok settings => .ok (override settings a)

/-- The repository that is named, unless the name is blank. -/
def namedRepo? : Option String → Option String
  | none => none
  | some name => Text.trimmed? name

/-! ## The run -/

/-- The runner with credentials if a user is named; the password is a line from the terminal. -/
def withLogin (m : Machine σ) (runner : Runner) (username : Option String) :
    Except Failure Runner :=
  match namedRepo? username with
  | none => .ok runner
  | some name =>
    match m.typed with
    | none => .error (.system .noTerminal)
    | some typed =>
      match Text.lineText (Text.cutLine typed).1 with
      | none => .error (.system .notText)
      | some password => .ok { runner with credentials := some ⟨name, password⟩ }

/-- What a run needs before the server is waited for. -/
structure Plan where
  settings : Settings
  scenarios : List Scenario
  repo : String
  runner : Runner

def plan (m : Machine σ) (disk : Tree) (a : Arguments) : Except Failure Plan :=
  match resolveSettings m disk a with
  | .error failure => .error failure
  | .ok settings =>
    match Scenario.select a.scenarios with
    | .error failure => .error failure
    | .ok scenarios =>
      let repo := (namedRepo? a.reponame).getD m.freshName
      let server := ServerChoice.ofText a.server settings.readiness.defaultServer
      match Runner.create m disk settings.client server settings.passphrases with
      | .error failure => .error failure
      | .ok runner =>
        match withLogin m runner a.username with
        | .error failure => .error failure
        | .ok runner => .ok ⟨settings, scenarios, repo, runner⟩

/-- The wait for the server, unless it is to be skipped. -/
def awaitServer (m : Machine σ) (a : Arguments) (p : Plan) : Except Failure Unit :=
  if a.skipWait then .ok ()
  else
    Readiness.wait p.settings.readiness p.runner.server m.health
      (Readiness.enough p.settings.readiness m.health)

/-- Runs the chosen scenarios; those that passed. -/
def run (m : Machine σ) (a : Arguments) : Trial σ (List Scenario) := do
  let p ← Trial.look (fun disk => plan m disk a)
  Trial.ofExcept (awaitServer m a p)
  let passed ← Trial.runAll m p.runner p.repo p.scenarios
  Trial.say (Text.paint m.colored .boldGreen "✓" ++ " " ++ toString passed.length ++
    " scenario(s) passed: " ++ ", ".intercalate (passed.map Scenario.name))
  pure passed

/-! ## The program -/

def version : String := "trust-harness 0.1.0"

def usage : String :=
  "Usage: trust-harness [-r NAME] [-s SERVER] [-u USERNAME] [-c CONFIG] [--binary BINARY]\n" ++
  "                     [--timeout SECONDS] [--scenario NAME]... [--skip-wait] [-v]\n" ++
  "                     [--log-file FILE]\n"

/-- How the program ends. -/
structure Ending where
  exit : Nat
  stdout : String
  stderr : String

/-- Opens the log file, so that it is there from the beginning; a warning if that fails. -/
def openLog (m : Machine σ) (s : Session σ) : Option String → Session σ
  | none => s
  | some path =>
    match s.disk.touch m.here path with
    | .ok disk => { s with disk := disk }
    | .error fault =>
      { s with
        stderr := s.stderr ++ "Warning: Could not open log file " ++ path ++ ": " ++
          fault.message ++ "\n" }

/-- The whole program on the words of its command line. -/
def main (m : Machine σ) (words : List String) (s : Session σ) : Ending × Session σ :=
  match Usage.read words with
  | .error .displayHelp => (⟨0, usage, ""⟩, s)
  | .error .displayVersion => (⟨0, version ++ "\n", ""⟩, s)
  | .error _ => (⟨2, "", usage⟩, s)
  | .ok a =>
    match Trial.run (run m a) (openLog m s a.logFile) with
    | (.ok _, s) => (⟨0, s.printed, s.stderr⟩, s)
    | (.error failure, s) =>
      (⟨1, s.printed, s.stderr ++ "Error: " ++ failure.message ++ "\n"⟩, s)

end Program
end TrustTrial
