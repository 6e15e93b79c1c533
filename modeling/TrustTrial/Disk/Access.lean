import TrustTrial.Disk.Tree
import TrustTrial.Text.Utf8

/-!
# TrustTrial.Disk.Access

Reading and changing a tree through paths. Every function takes the working directory and the path
and refuses for the reasons an operating system has; a refused change leaves the tree as it was,
except that directories already made on the way to a deeper one stay.
-/

namespace TrustTrial
namespace Disk
namespace Tree

/-! ## Reading -/

def readBytes (t : Tree) (here : Location) (path : String) : Except Fault ByteArray :=
  match t.look here path with
  | .error fault => .error fault
  | .ok .directory => .error .isDirectory
  | .ok (.file data _) => .ok data

def readText (t : Tree) (here : Location) (path : String) : Except Fault String :=
  match t.readBytes here path with
  | .error fault => .error fault
  | .ok data =>
    match String.fromUTF8? data with
    | none => .error .notText
    | some text => .ok text

def leads (t : Tree) (here : Location) (path : String) : Bool :=
  match t.look here path with
  | .error _ => false
  | .ok _ => true

def isDirectory (t : Tree) (here : Location) (path : String) : Bool :=
  match t.look here path with
  | .ok .directory => true
  | _ => false

def isProgram (t : Tree) (here : Location) (path : String) : Bool :=
  match t.look here path with
  | .ok (.file _ executable) => executable
  | _ => false

/-! ## Changing -/

/-- Writes a file, in place of the old content if there is one. -/
def write (t : Tree) (here : Location) (path : String) (data : ByteArray) : Except Fault Tree :=
  match t.locate here path with
  | .error fault => .error fault
  | .ok place =>
    match t.find? place with
    | none => .ok (t.put place (.file data false))
    | some .directory => .error .isDirectory
    | some (.file _ executable) => .ok (t.put place (.file data executable))

/-- Opens a file for writing, so that it is there afterwards, with its old content if it is not new.
A path that ends in a slash leads to no file. -/
def touch (t : Tree) (here : Location) (path : String) : Except Fault Tree :=
  if Path.endsInSlash path then
    match refuse? path with
    | some fault => .error fault
    | none =>
      match t.walk (if Path.isAbsolute path then [] else here) (Path.names path) with
      | .error fault => .error fault
      | .ok _ => .error .isDirectory
  else
    match t.locate here path with
    | .error fault => .error fault
    | .ok place =>
      match t.find? place with
      | none => .ok (t.put place (.file .empty false))
      | some .directory => .error .isDirectory
      | some (.file _ _) => .ok t

/-- Puts something new where nothing is. -/
def create (t : Tree) (here : Location) (path : String) (node : Node) : Except Fault Tree :=
  match t.locate here path with
  | .error fault => .error fault
  | .ok place =>
    match t.find? place with
    | none => .ok (t.put place node)
    | some _ => .error .alreadyThere

/-- Makes the directories of a walk that are not there yet; the tree is given also when the walk
ends early. A file in the way is reported as taking the place of a directory if it is the last part
or if a directory has been `made` before it. -/
def makeWalk (t : Tree) (made : Bool) : Location → List String → Option Fault × Tree
  | _, [] => (none, t)
  | place, part :: parts =>
    match t.step place part with
    | .error fault => (some fault, t)
    | .ok next =>
      match t.find? next with
      | none => (t.put next .directory).makeWalk true next parts
      | some .directory => t.makeWalk made next parts
      | some (.file _ _) =>
        (some (if made || parts.isEmpty then .alreadyThere else .notDirectory), t)

/-- Makes a directory and all those above it; none of them is new if they are there. -/
def makeDirectories (t : Tree) (here : Location) (path : String) : Option Fault × Tree :=
  match Path.names path with
  | [] => (none, t)
  | names =>
    match refuse? path with
    | some fault => (some fault, t)
    | none => t.makeWalk false (if Path.isAbsolute path then [] else here) names

def removeFile (t : Tree) (here : Location) (path : String) : Except Fault Tree :=
  match t.locate here path with
  | .error fault => .error fault
  | .ok place =>
    match t.find? place with
    | none => .error .missing
    | some .directory => .error .isDirectory
    | some (.file _ _) => .ok (t.remove place)

/-- Removes a directory with everything in it. -/
def removeDirectory (t : Tree) (here : Location) (path : String) : Except Fault Tree :=
  match t.locate here path with
  | .error fault => .error fault
  | .ok place =>
    match t.find? place with
    | none => .error .missing
    | some .directory => .ok (t.remove place)
    | some (.file _ _) => .error .notDirectory

end Tree
end Disk
end TrustTrial
