import TrustTrial.Notary.Command

/-!
# TrustTrial.Replay

A client that plays a part: for every call it has a cue that says what to write, how to end and
what to do to the files, and it remembers every request. A cue may also hand the call on to the
notary.
-/

namespace TrustTrial
namespace Replay

open Disk

/-- The effects come in the order of the fields: files written below the trust directory, the
directory removed, replaced by a file, the payload file removed. -/
structure Cue where
  stdout : ByteArray
  exit : Int
  signal : Bool
  ignoresInput : Bool
  writes : List (String × ByteArray)
  removesDir : Bool
  replacesDir : Bool
  removesPayload : Bool
  asksNotary : Bool

def Cue.plain : Cue := ⟨.empty, 0, false, false, [], false, false, false, false⟩

/-- A request as it was noticed: what of the input was read, and the content of the payload file if
an argument names one. -/
structure Heard where
  request : Request
  stdin : ByteArray
  payload : Option ByteArray

/-- The cues to come and the one for when they are used up, what has been heard so far, and how
many keys the notary has made. -/
structure Part where
  cues : List Cue
  otherwise : Cue
  heard : List Heard
  made : Nat

/-! ## Effects -/

/-- The trust directory that a request names. -/
def trustDir? : List String → Option String
  | [] => none
  | [_] => none
  | a :: b :: rest => if a = "-d" then some b else trustDir? (b :: rest)

/-- The first argument that names a file in the directory of payloads. -/
def payload? (disk : Tree) (here : Location) (payloads : String) :
    List String → Option (String × ByteArray)
  | [] => none
  | a :: rest =>
    match (payloads.toList ++ ['/']).isPrefixOf a.toList, disk.readBytes here a with
    | true, .ok data => some (a, data)
    | _, _ => payload? disk here payloads rest

/-- Writes a file and the directories above it, as far as that is possible. -/
def plant (here : Location) (disk : Tree) (path : String) (data : ByteArray) : Tree :=
  let (_, disk) := disk.makeDirectories here (Path.parent path)
  match disk.write here path data with
  | .error _ => disk
  | .ok disk => disk

/-- A tree after a change, or as it was if the change was refused. -/
def settle (disk : Tree) : Except Fault Tree → Tree
  | .error _ => disk
  | .ok disk => disk

def Cue.touch (cue : Cue) (r : Request) (payload : Option (String × ByteArray)) (disk : Tree) :
    Tree :=
  let disk := match trustDir? r.args with
    | none => disk
    | some dir =>
      let disk := cue.writes.foldl
        (fun disk file => plant r.here disk (Path.join dir file.1) file.2) disk
      let disk := if cue.removesDir || cue.replacesDir then
        settle disk (disk.removeDirectory r.here dir) else disk
      if cue.replacesDir then settle disk (disk.write r.here dir .empty) else disk
  match payload with
  | none => disk
  | some (path, _) =>
    if cue.removesPayload then settle disk (disk.removeFile r.here path) else disk

/-! ## Calls -/

def run (keyName : Nat → String) (payloads : String) (r : Request) (p : Part) (disk : Tree) :
    Reply × Part × Tree :=
  let (cue, cues) := match p.cues with
    | [] => (p.otherwise, [])
    | cue :: cues => (cue, cues)
  let payload := payload? disk r.here payloads r.args
  let stdin := if cue.ignoresInput then .empty else r.stdin
  let p := { p with cues := cues, heard := p.heard ++ [⟨r, stdin, payload.map (·.2)⟩] }
  if cue.asksNotary then
    let (reply, made, disk) := Notary.run keyName r p.made disk
    (reply, { p with made := made }, disk)
  else
    (⟨cue.stdout, "", if cue.signal then none else some (cue.exit % 256)⟩, p,
      cue.touch r payload disk)

/-- A client that plays a part, except as the program `notary`, which is the notary itself. -/
def client (keyName : Nat → String) (payloads notary : String) : Client Part where
  run r p disk :=
    if Path.fileName? r.program = some notary then
      let (reply, made, disk) := Notary.run keyName r p.made disk
      (reply, { p with made := made }, disk)
    else run keyName payloads r p disk

end Replay
end TrustTrial
