import TrustTrial.Prompts

/-!
# TrustTrial.Invocation

One call of the client, described before anything runs: its arguments, the trust directory it works
on, a payload for its input, whether it goes without credentials, and additional environment
variables.
-/

namespace TrustTrial

structure Invocation where
  args : List String
  trustDir : String
  payload : Option String
  offline : Bool
  assignments : List (String × String)
  deriving DecidableEq

namespace Invocation

def new (trustDir : String) (args : List String) : Invocation := ⟨args, trustDir, none, false, []⟩

def withPayload (i : Invocation) (text : String) : Invocation := { i with payload := some text }

/-- Without credentials, whatever is configured. -/
def withoutCredentials (i : Invocation) : Invocation := { i with offline := true }

def withVariable (i : Invocation) (name value : String) : Invocation :=
  { i with assignments := i.assignments ++ [(name, value)] }

/-- A step in building an invocation. -/
inductive Step where
  | payload (text : String)
  | offline
  | assign (name value : String)
  deriving DecidableEq

def apply (i : Invocation) : Step → Invocation
  | .payload text => i.withPayload text
  | .offline => i.withoutCredentials
  | .assign name value => i.withVariable name value

/-- The answers on the input of the call, given the configured credentials. -/
def answers (i : Invocation) (configured : Option Credentials) : List Answer :=
  Prompts.plan i.payload (if i.offline then none else configured)

end Invocation
end TrustTrial
