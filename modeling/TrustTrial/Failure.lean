import TrustTrial.Disk.Fault
import TrustTrial.Json.Value
import TrustTrial.Scenario

/-!
# TrustTrial.Failure

What can go wrong in a trial, and the message for it. Every failure ends the run, so a message has
to hold enough to find the trouble from it alone: command lines, captured output, compared values.
-/

namespace TrustTrial

open Text

/-- A check that did not hold. The lists are the rows or key ids that were found. `stated` is a
check given in words, `during` one that belongs to a stage. -/
inductive Violation where
  | stated (text : String)
  | rootKeys (found : List String)
  | rootRows (found : List String)
  | noRootRow
  | newRootRows (found : List String)
  | keyCount (expected found : Nat)
  | sameRootKey (key : String)
  | reusedRootKey (key : String)
  | unequalListings (first second : String)
  | missingTarget (name : String) (rows : List String)
  | missingAfterRotation (name : String) (rows : List String)
  | targetCount (name role : String) (found : Nat) (rows : List String)
  | during (stage : Stage) (violation : Violation)
  deriving DecidableEq, Repr

def Violation.message : Violation → String
  | .stated text => text
  | .rootKeys found =>
    "expected 1 valid root key, got " ++ toString found.length ++ ": " ++ quotedList found
  | .rootRows found =>
    "expected exactly 1 root key in key list, got " ++ toString found.length ++ ": " ++
      quotedList found
  | .noRootRow => "no root key in key list"
  | .newRootRows found =>
    "expected exactly 1 new root key in key list, got " ++ toString found.length ++ ": " ++
      quotedList found
  | .keyCount expected found =>
    "expected " ++ toString expected ++ " base keys, but got " ++ toString found
  | .sameRootKey key => "root key has not been rotated: still " ++ key
  | .reusedRootKey key => "root key " ++ key ++ " was trusted before and has been reused"
  | .unequalListings first second => "targets lists not equal: \n" ++ first ++ "\n" ++ second
  | .missingTarget name rows => "missing expected " ++ name ++ ": " ++ quotedSet rows
  | .missingAfterRotation name rows =>
    "missing expected " ++ name ++ " after rotation: " ++ quotedSet rows
  | .targetCount name role found rows =>
    "expected " ++ name ++ " once in the " ++ role ++ " role, found " ++ toString found ++ ": " ++
      quotedSet rows
  | .during stage violation => "[" ++ stage.name ++ "] " ++ violation.message

/-- Why a file could not be used: it could not be read, it held no fitting JSON, or a reason in
words. -/
inductive Obstacle where
  | unreadable (fault : Disk.Fault)
  | unfitting (fault : Json.Fault)
  | stated (text : String)
  deriving DecidableEq, Repr

def Obstacle.message : Obstacle → String
  | .unreadable fault => fault.message
  | .unfitting fault => "JSON error: " ++ fault.message
  | .stated text => text

/-- Why the text of a settings file was refused. -/
inductive Rejection where
  | unfitting
  | noSuccesses
  | stated (text : String)
  deriving DecidableEq, Repr

def Rejection.message : Rejection → String
  | .unfitting => "TOML parse error"
  | .noSuccesses => "readiness.required_successes must be at least 1"
  | .stated text => text

/-- What ended a trial. `exited` is a client that ended without success (no code means a signal),
`notFound` and `notStarted` one that never ran. -/
inductive Failure where
  | exited (command : String) (code : Option Int) (stdout : String)
  | notFound (program : String)
  | notStarted (command : String) (fault : Disk.Fault)
  | unreachable (server : String) (seconds : Nat)
  | violated (violation : Violation)
  | metadata (path : String) (obstacle : Obstacle)
  | unknownScenario (name : String)
  | configuration (text : String)
  | settings (rejection : Rejection)
  | system (fault : Disk.Fault)
  | file (path : String) (obstacle : Obstacle)
  | json (fault : Json.Fault)
  deriving DecidableEq, Repr

namespace Failure

def describeExit : Option Int → String
  | some code => "exit code " ++ toString code
  | none => "no exit code (terminated by signal)"

def message : Failure → String
  | .exited command code stdout =>
    "Command \x60" ++ command ++ "\x60 exited with " ++ describeExit code ++ "\n" ++ stdout
  | .notFound program => "Trust client binary '" ++ program ++ "' not found in PATH"
  | .notStarted command fault =>
    "Failed to spawn \x60" ++ command ++ "\x60: " ++ fault.message
  | .unreachable server seconds =>
    "Could not connect to " ++ server ++ " after " ++ toString seconds ++ " seconds"
  | .violated violation => "Test assertion failed: " ++ violation.message
  | .metadata path obstacle =>
    "Failed to read trust metadata '" ++ path ++ "': " ++ obstacle.message
  | .unknownScenario name =>
    "Configuration error: Unknown scenario '" ++ name ++ "'. Available: " ++
      ", ".intercalate (Scenario.all.map Scenario.name)
  | .configuration text => "Configuration error: " ++ text
  | .settings rejection => "Invalid configuration file: " ++ rejection.message
  | .system fault => "IO error: " ++ fault.message
  | .file path obstacle => "Failed to read file '" ++ path ++ "': " ++ obstacle.message
  | .json fault => "JSON error: " ++ fault.message

/-- The exit code of a client that ended without success. -/
def exitCode : Failure → Option Int
  | .exited _ code _ => code
  | _ => none

/-- What a client that ended without success had written. -/
def output : Failure → Option String
  | .exited _ _ stdout => some stdout
  | _ => none

/-- Says in which stage a check failed; other failures stay as they are. -/
def during (stage : Stage) : Failure → Failure
  | .violated violation => .violated (.during stage violation)
  | failure => failure

end Failure
end TrustTrial
