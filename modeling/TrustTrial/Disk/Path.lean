import TrustTrial.Text.Parted

/-!
# TrustTrial.Disk.Path

Paths as they are written: text with slashes. A path keeps its spelling when it is extended or
shown; what it names is decided by walking its parts.
-/

namespace TrustTrial
namespace Disk
namespace Path

/-- The stretches between slashes. -/
def parts (path : String) : List String := Text.parted '/' path

def isAbsolute (path : String) : Bool :=
  match path.toList with
  | '/' :: _ => true
  | _ => false

def endsInSlash (path : String) : Bool :=
  match path.toList.getLast? with
  | some '/' => true
  | _ => false

/-- A path below another one. An absolute path stands for itself. -/
def join (base path : String) : String :=
  if isAbsolute path then path
  else if base.isEmpty || endsInSlash base then base ++ path
  else base ++ "/" ++ path

/-- The parts that lead on: neither empty nor a single dot. -/
def names (path : String) : List String :=
  (parts path).filter (fun part => part ≠ "" ∧ part ≠ ".")

/-- The name of what the path leads to, unless its last step goes up. -/
def fileName? (path : String) : Option String :=
  match (names path).getLast? with
  | none => none
  | some name => if name = ".." then none else some name

/-- The path without its last part. -/
def parent (path : String) : String := "/".intercalate (parts path).dropLast

/-- Whether a relative path is a single name, or a dot, or nothing at all. -/
def isBare (path : String) : Bool :=
  if isAbsolute path then false
  else
    match parts path with
    | "." :: _ => (names path).isEmpty
    | _ => (names path).length ≤ 1

def hasSlash (path : String) : Bool := path.toList.contains '/'

def hasNul (text : String) : Bool := text.toList.contains '\x00'

end Path
end Disk
end TrustTrial
