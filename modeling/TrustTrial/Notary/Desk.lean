import TrustTrial.Disk.Access
import TrustTrial.Notary.Record
import TrustTrial.RootDocument
import TrustTrial.Text.Line
import TrustTrial.Text.Quoted

/-!
# TrustTrial.Notary.Desk

What one run of the notary works on, and the steps it takes: reading lines of its input, printing,
and reading and writing its files. A step that fails says why; files written before stay.
-/

namespace TrustTrial
namespace Notary

open Disk

/-- Why a run ends without success. `unreadable` and `unparsable` concern files, the latter also
the configuration, which is named nowhere in its message. `notWritten` and the two after it are what
an operating system refuses while something is changed. `exhausted` is no refusal: the run stops in
the middle, because the version of a record is the largest number of its kind. -/
inductive Trouble where
  | noTrustDir
  | oneServer
  | otherServer (url : String)
  | noConfig
  | notJson (fault : Json.Fault)
  | noStorage
  | unknownCommand (words : List String)
  | unknownProbe (words : List String)
  | badExitCode (word : String)
  | badSize (word : String)
  | unconfirmed
  | passphraseUnset (name : String)
  | loginFailed (username : String)
  | repoMissing (repo : String)
  | repoExists (repo : String)
  | targetMissing (name repo : String)
  | otherContent (name : String)
  | unreadable (path : String) (fault : Disk.Fault)
  | unparsable (path : String) (fault : Json.Fault)
  | notWritten (path : String) (fault : Disk.Fault)
  | notMade (fault : Disk.Fault)
  | notRemoved (fault : Disk.Fault)
  | inputNotText
  | exhausted
  deriving DecidableEq, Repr

def Trouble.message : Trouble → String
  | .noTrustDir => "missing -d <trust dir>"
  | .oneServer => "expected exactly one of -s <server> or -D"
  | .otherServer url => "unsupported server " ++ url
  | .noConfig => "local mode needs -c"
  | .notJson fault => fault.message
  | .noStorage => "config has no storage"
  | .unknownCommand words => "unknown command: " ++ Text.quotedList words
  | .unknownProbe words => "unknown debug command: " ++ Text.quotedList words
  | .badExitCode word => "bad exit code " ++ word
  | .badSize word => "bad size " ++ word
  | .unconfirmed => "root key rotation not confirmed"
  | .passphraseUnset name => name ++ " is not set"
  | .loginFailed username => "authentication failed for user " ++ Text.quoted username
  | .repoMissing repo => "repository " ++ repo ++ " does not exist"
  | .repoExists repo => "repository " ++ repo ++ " already exists"
  | .targetMissing name repo => "target " ++ name ++ " not found in " ++ repo
  | .otherContent name => "data not present in the trusted collection for " ++ name
  | .unreadable path fault => "read " ++ path ++ ": " ++ fault.message
  | .unparsable path fault => "parse " ++ path ++ ": " ++ fault.message
  | .notWritten path fault => "write " ++ path ++ ": " ++ fault.message
  | .notMade fault => fault.message
  | .notRemoved fault => fault.message
  | .inputNotText => Disk.Fault.notText.message
  | .exhausted => "attempt to add with overflow"

/-- What is said about it on the error output. -/
def Trouble.report : Trouble → String
  | .exhausted => Trouble.exhausted.message ++ "\n"
  | trouble => "* fatal: " ++ trouble.message ++ "\n"

/-- The exit code of a run that ends with it. -/
def Trouble.exit : Trouble → Int
  | .exhausted => 101
  | _ => 1

/-- The files, what is left of the input, what has been printed, and how many keys have been
made. -/
structure Desk where
  disk : Tree
  input : List UInt8
  output : ByteArray
  made : Nat

abbrev Step (α : Type) := ExceptT Trouble (StateM Desk) α

namespace Step

variable {α β : Type}

def run (x : Step α) (d : Desk) : Except Trouble α × Desk := x d

@[simp] theorem run_pure (a : α) (d : Desk) : run (pure a) d = (.ok a, d) := rfl

@[simp] theorem run_throw (trouble : Trouble) (d : Desk) :
    run (throw trouble : Step α) d = (.error trouble, d) := rfl

theorem run_bind (x : Step α) (f : α → Step β) (d : Desk) :
    run (x >>= f) d =
      match run x d with
      | (.error trouble, d) => (.error trouble, d)
      | (.ok a, d) => run (f a) d := by
  simp only [run, bind, ExceptT.bind, ExceptT.mk, StateT.bind, ExceptT.bindCont]
  cases x d with
  | mk result e => cases result <;> rfl

end Step

/-! ## Input and output -/

/-- The next line of the input without its line end; empty at the end of the input. -/
def readLine : Step String := fun d =>
  let (line, rest) := Text.cutLine d.input
  let d := { d with input := rest }
  match Text.lineText line with
  | none => (.error .inputNotText, d)
  | some line => (.ok line, d)

def print (text : String) : Step Unit := fun d =>
  (.ok (), { d with output := d.output ++ text.toUTF8 })

def say (line : String) : Step Unit := print (line ++ "\n")

/-! ## Files -/

/-- A step that only looks at the files. -/
def look {α : Type} (f : Tree → Except Trouble α) : Step α := fun d => (f d.disk, d)

def present (here : Location) (path : String) : Step Bool :=
  look (fun disk => .ok (disk.leads here path))

def readText (here : Location) (path : String) : Step String :=
  look (fun disk =>
    match disk.readText here path with
    | .error fault => .error (.unreadable path fault)
    | .ok text => .ok text)

def readBytes (here : Location) (path : String) : Step ByteArray :=
  look (fun disk =>
    match disk.readBytes here path with
    | .error fault => .error (.unreadable path fault)
    | .ok data => .ok data)

def readFile {α : Type} (here : Location) (shape : Json.Shape)
    (ofValue? : Json.Value → Option α) (path : String) : Step α := do
  let text ← readText here path
  match readAs shape ofValue? text with
  | .error fault => throw (.unparsable path fault)
  | .ok a => pure a

/-- Writes a JSON file, in a directory that is made if need be. -/
def writeFile (here : Location) (path : String) (v : Json.Value) : Step Unit := fun d =>
  match d.disk.makeDirectories here (Path.parent path) with
  | (some fault, disk) => (.error (.notMade fault), { d with disk := disk })
  | (none, disk) =>
    match disk.write here path v.pretty.toUTF8 with
    | .error fault => (.error (.notWritten path fault), { d with disk := disk })
    | .ok disk => (.ok (), { d with disk := disk })

def removeFile (here : Location) (path : String) : Step Unit := fun d =>
  match d.disk.removeFile here path with
  | .error fault => (.error (.notRemoved fault), d)
  | .ok disk => (.ok (), { d with disk := disk })

end Notary
end TrustTrial
