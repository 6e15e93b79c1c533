import TrustTrial.Invocation
import TrustTrial.Machine

/-!
# TrustTrial.Runner

How the client is called throughout a trial: which program, against which server, with which
passphrases and credentials. The runner turns an invocation into arguments and into the start of a
program; nothing runs here.
-/

namespace TrustTrial

structure Runner where
  binary : String
  server : ServerChoice
  localConfig : String
  passphrases : Passphrases
  credentials : Option Credentials
  echo : Bool
  deriving DecidableEq

namespace Runner

variable {σ : Type}

/-- A path is taken as it stands; a bare name is looked up. -/
def resolve (m : Machine σ) (disk : Disk.Tree) (binary : String) : Except Failure String :=
  if Disk.Path.isBare binary then
    if Disk.Path.hasSlash binary then .error (.notFound binary)
    else
      match m.findProgram disk binary with
      | none => .error (.notFound binary)
      | some program => .ok program
  else .ok binary

def create (m : Machine σ) (disk : Disk.Tree) (client : ClientSettings) (server : ServerChoice)
    (passphrases : Passphrases) : Except Failure Runner :=
  match resolve m disk client.binary with
  | .error failure => .error failure
  | .ok binary => .ok ⟨binary, server, client.localConfig, passphrases, none, true⟩

/-- The flags that choose the server. -/
def serverFlags (r : Runner) : List String :=
  match r.server with
  | .remote url => ["-s", url]
  | .embedded => ["-D", "-c", r.localConfig]

def arguments (r : Runner) (i : Invocation) : List String :=
  r.serverFlags ++ ["-d", i.trustDir] ++ i.args

/-- The call as it is shown to the operator and in messages. -/
def commandLine (r : Runner) (i : Invocation) : String :=
  " ".intercalate (r.binary :: r.arguments i)

/-- The variables of a call: the inherited ones, over them the passphrases, over them those of the
invocation, of which the last one of a name counts. -/
def environment (r : Runner) (i : Invocation) (inherited : Dict String) : Dict String :=
  (r.passphrases.assignments ++ i.assignments).foldl (fun d v => d.insert v.1 v.2) inherited

def request (r : Runner) (m : Machine σ) (i : Invocation) : Request where
  program := r.binary
  args := r.arguments i
  stdin := (Prompts.encode (i.answers r.credentials)).toUTF8
  environment := r.environment i m.environment
  here := m.here

end Runner

/-- What came of a call. -/
structure Outcome where
  stdout : String
  exitCode : Option Int
  deriving DecidableEq, Repr

namespace Outcome

def succeeded (o : Outcome) : Bool := o.exitCode = some 0

/-- The output of a call that succeeded. -/
def output (o : Outcome) (command : String) : Except Failure String :=
  if o.succeeded then .ok o.stdout else .error (.exited command o.exitCode o.stdout)

end Outcome
end TrustTrial
