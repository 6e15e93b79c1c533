import TrustTrial.Disk.ErrorNumber
import TrustTrial.Text.Quoted

/-!
# TrustTrial.Disk.Fault

Why an operation on files or processes was refused, and how messages say it. Most refusals come
from the operating system and carry its number.
-/

namespace TrustTrial
namespace Disk

/-- A refusal. `system` is an error number of the operating system, `notText` bytes that are no
UTF-8 where a text is wanted, `nulInPath` and `nulInData` a NUL character in a path or in the
arguments and variables of a process, and `at` a fault with the path it concerns. -/
inductive Fault where
  | system (code : Nat)
  | notText
  | nulInPath
  | nulInData
  | at (path : String) (fault : Fault)
  deriving DecidableEq, Repr

namespace Fault

def noTerminal : Fault := .system 6
def missing : Fault := .system 2
def argumentsTooLong : Fault := .system 7
def denied : Fault := .system 13
def alreadyThere : Fault := .system 17
def notDirectory : Fault := .system 20
def isDirectory : Fault := .system 21
def nameTooLong : Fault := .system 36

def message : Fault → String
  | .system code => errorWords code ++ " (os error " ++ toString code ++ ")"
  | .notText => "stream did not contain valid UTF-8"
  | .nulInPath => "file name contained an unexpected NUL byte"
  | .nulInData => "nul byte found in provided data"
  | .at path fault => fault.message ++ " at path " ++ Text.quoted path

/-- Whether the fault is that nothing was there. -/
def isMissing : Fault → Bool
  | .system code => code = 2
  | .at _ fault => fault.isMissing
  | _ => false

end Fault
end Disk
end TrustTrial
