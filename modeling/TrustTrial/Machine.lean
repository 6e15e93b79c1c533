import TrustTrial.Dict
import TrustTrial.Disk.Access
import TrustTrial.Readiness

/-!
# TrustTrial.Machine

What a trial runs on: files, environment variables, a server, and the client program, of which
nothing is assumed. A client is whatever answers a request from its own state and the files, and
changes both as it likes.
-/

namespace TrustTrial

/-- The start of a program: its path and arguments, everything on its input, its whole environment
and its working directory. -/
structure Request where
  program : String
  args : List String
  stdin : ByteArray
  environment : Dict String
  here : Disk.Location

/-- The end of a program. There is no exit code after a signal. -/
structure Reply where
  stdout : ByteArray
  stderr : String
  exit : Option Int

/-- A client program with a state of its own that lives on between its runs. -/
structure Client (σ : Type) where
  run : Request → σ → Disk.Tree → Reply × σ × Disk.Tree

/-- The surroundings of a trial. `accountHome` is the home directory that the operator's account
has, `tempName` supplies the names of temporary entries and `freshName` a repository name that
is not in use; `typed` is what the operator types at the terminal, if there is one, and
`argumentSpace` what the operating system has room for when it starts a program. -/
structure Machine (σ : Type) where
  client : Client σ
  here : Disk.Location
  environment : Dict String
  accountHome : Option String
  tempName : Nat → String
  freshName : String
  health : Readiness.Health
  typed : Option (List UInt8)
  colored : Bool
  argumentSpace : Nat := 2097152

namespace Machine

variable {σ : Type}

def tempDir (m : Machine σ) : String := (m.environment.get? "TMPDIR").getD "/tmp"

/-- The directories in which programs are looked up by name. -/
def searchPath (m : Machine σ) : List String :=
  match m.environment.get? "PATH" with
  | none => []
  | some dirs => Text.parted ':' dirs

/-- The first program of a name on the search path. -/
def findProgram (m : Machine σ) (disk : Disk.Tree) (name : String) : Option String :=
  (m.searchPath.map (fun dir => Disk.Path.join dir name)).find? (disk.isProgram m.here)

/-- The home directory that the environment names, or else that of the account. -/
def home? (m : Machine σ) : Option String :=
  match m.environment.get? "HOME" with
  | none => m.accountHome
  | some home => if home.isEmpty then m.accountHome else some home

/-- The directory for settings of programs: the one that the environment names by an absolute path,
or else the usual one below the home directory. -/
def settingsDir (m : Machine σ) (home : String) : String :=
  match m.environment.get? "XDG_CONFIG_HOME" with
  | none => Disk.Path.join home ".config"
  | some dir => if Disk.Path.isAbsolute dir then dir else Disk.Path.join home ".config"

/-- The settings file that is read if none is named, when there is a home directory. -/
def defaultSettings (m : Machine σ) : Option String :=
  m.home?.map (fun home =>
    Disk.Path.join (Disk.Path.join (m.settingsDir home) "trust-harness") "config.toml")

end Machine

namespace Request

/-- The most bytes that an argument or a variable may take, with the byte that ends it. -/
def wordLimit : Nat := 131072

/-- The bytes of what is handed to a program, each with the byte that ends it: its path, the
arguments, of which the first is the path again, and the variables as `NAME=value`. -/
def wordSizes (r : Request) : List Nat :=
  (r.program :: r.program :: r.args).map (fun word => word.utf8ByteSize + 1) ++
    r.environment.toList.map (fun v => v.1.utf8ByteSize + v.2.utf8ByteSize + 2)

/-- Whether a program is handed more than the operating system takes: one word that is too long, or
more than there is room for, where every argument and variable needs a pointer besides. -/
def oversize (r : Request) (space : Nat) : Bool :=
  r.wordSizes.any (fun size => wordLimit < size) ||
    space < r.wordSizes.foldl (· + ·) 0 + 8 * (r.args.length + 1 + r.environment.toList.length)

/-- Why a program cannot be started at all, if so. -/
def barred (r : Request) (disk : Disk.Tree) : Option Disk.Fault :=
  if Disk.Path.hasNul r.program || r.args.any Disk.Path.hasNul ||
      r.environment.toList.any (fun v => Disk.Path.hasNul v.1 || Disk.Path.hasNul v.2) then
    some .nulInData
  else
    match disk.look r.here r.program with
    | .error fault => some fault
    | .ok .directory => some .denied
    | .ok (.file _ executable) => if executable then none else some .denied

/-- Why a program cannot be started with what it is handed, if so. Its file is opened before anything
is handed over. -/
def refused (r : Request) (space : Nat) (disk : Disk.Tree) : Option Disk.Fault :=
  match r.barred disk with
  | some fault => some fault
  | none => if r.oversize space then some .argumentsTooLong else none

end Request

end TrustTrial
