/-!
# TrustTrial.Notary.Flags

The flags in front of a command of the notary. They end at the first word that is none of them;
everything from there on is the command, whatever it looks like.
-/

namespace TrustTrial
namespace Notary

structure Flags where
  server : Option String
  embedded : Bool
  config : Option String
  trustDir : Option String
  deriving DecidableEq, Repr

namespace Flags

def blank : Flags := ⟨none, false, none, none⟩

/-- Takes flags from the front of the arguments; what is left is the command. A flag that wants a
value takes the next argument, if there is one. -/
def take : Flags → List String → Flags × List String
  | f, [] => (f, [])
  | f, ["-s"] => ({ f with server := none }, [])
  | f, ["-c"] => ({ f with config := none }, [])
  | f, ["-d"] => ({ f with trustDir := none }, [])
  | f, a :: b :: rest =>
    if a = "-s" then take { f with server := some b } rest
    else if a = "-c" then take { f with config := some b } rest
    else if a = "-d" then take { f with trustDir := some b } rest
    else if a = "-D" then take { f with embedded := true } (b :: rest)
    else (f, a :: b :: rest)
  | f, [a] => if a = "-D" then ({ f with embedded := true }, []) else (f, [a])

def read (args : List String) : Flags × List String := take blank args

end Flags
end Notary
end TrustTrial
