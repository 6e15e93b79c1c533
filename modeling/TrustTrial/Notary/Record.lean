import TrustTrial.Dict
import TrustTrial.Json.Printer
import TrustTrial.Json.Reader
import TrustTrial.Text.Numeral

/-!
# TrustTrial.Notary.Record

What the notary keeps in files: the signed state of a repository on its server, and on the side of
a client its keys and the targets staged for the next publication. Each has a JSON value that is
written, the shape that is read, and the way back from it.
-/

namespace TrustTrial
namespace Notary

open Json

/-! ## Digests -/

def digestStart : UInt64 := 0xcbf29ce484222325

def digestFactor : UInt64 := 0x100000001b3

/-- One byte more in a digest. -/
def digestStep (hash : UInt64) (byte : UInt8) : UInt64 :=
  (hash ^^^ byte.toUInt64) * digestFactor

/-- The 64-bit FNV-1a digest of a content, in sixteen hexadecimal digits. -/
def digest (data : ByteArray) : String :=
  Text.hexadecimal 16 (data.data.toList.foldl digestStep digestStart).toNat

/-! ## Values -/

/-- The content of a target, known by its digest and its length. -/
structure Target where
  digest : String
  size : Nat
  deriving DecidableEq, Repr

def Target.ofContent (data : ByteArray) : Target := ⟨Notary.digest data, data.size⟩

/-- The signed state of a repository. `keys` gives for every key id the role it was made for. -/
structure Record where
  keys : Dict String
  roles : Dict (List String)
  targets : Dict Target
  version : Nat
  deriving DecidableEq

/-- A key that a client holds. The root key belongs to no one repository, so its `gun` is empty. -/
structure LocalKey where
  role : String
  gun : String
  id : String
  deriving DecidableEq, Repr

/-- An addition that waits for the next publication. -/
structure Staged where
  name : String
  target : Target
  deriving DecidableEq, Repr

/-- The only user who may talk to a server. -/
structure Login where
  username : String
  password : String
  deriving DecidableEq, Repr

def Record.empty : Record := ⟨.empty, .empty, .empty, 0⟩

/-! ## Writing -/

def ofDict {α : Type} (f : α → Value) (d : Dict α) : Value :=
  .object (d.toList.map (fun e => (e.1, f e.2)))

def texts (xs : List String) : Value := .list (xs.map .text)

def Target.toValue (t : Target) : Value :=
  .object [("digest", .text t.digest), ("size", .natural t.size)]

def Record.toValue (r : Record) : Value :=
  .object [
    ("keys", ofDict .text r.keys), ("roles", ofDict texts r.roles),
    ("targets", ofDict Target.toValue r.targets), ("version", .natural r.version)]

def LocalKey.toValue (k : LocalKey) : Value :=
  .object [("role", .text k.role), ("gun", .text k.gun), ("id", .text k.id)]

def Staged.toValue (s : Staged) : Value :=
  .object [("name", .text s.name), ("target", s.target.toValue)]

/-- The root document of a repository, as its clients keep it. -/
def Record.rootDocument (r : Record) : Value :=
  .object [
    ("signatures", .list []),
    ("signed", .object [
      ("_type", .text "Root"),
      ("keys", .object (r.keys.toList.map (fun e =>
        (e.1, .object [
          ("keytype", .text "ecdsa"),
          ("keyval", .object [("public", .text (e.2 ++ ":" ++ e.1))])])))),
      ("roles", ofDict
        (fun ids => .object [("keyids", texts ids), ("threshold", .natural 1)]) r.roles),
      ("version", .natural r.version)])]

/-! ## Reading -/

def Target.shape : Shape := .record [("digest", .text), ("size", .natural)]

def Record.shape : Shape := .record [
  ("keys", .dictOf .text), ("roles", .dictOf (.listOf .text)),
  ("targets", .dictOf Target.shape), ("version", .natural)]

def LocalKey.shape : Shape := .record [("role", .text), ("gun", .text), ("id", .text)]

def Staged.shape : Shape := .record [("name", .text), ("target", Target.shape)]

def Login.shape : Shape := .record [("username", .text), ("password", .text)]

/-- A dictionary from the fields of an object. -/
def toDict? {α : Type} (f : Value → Option α) : Value → Option (Dict α)
  | .object fields =>
    match fields.mapM (fun e => (f e.2).map (fun a => (e.1, a))) with
    | none => none
    | some es => some (.ofList es)
  | _ => none

def toList? {α : Type} (f : Value → Option α) : Value → Option (List α)
  | .list items => items.mapM f
  | _ => none

def Target.ofValue? (v : Value) : Option Target :=
  match v.field? "digest", v.field? "size" with
  | some (.text digest), some (.natural size) => some ⟨digest, size⟩
  | _, _ => none

def Record.ofValue? (v : Value) : Option Record :=
  match v.field? "keys", v.field? "roles", v.field? "targets", v.field? "version" with
  | some keys, some roles, some targets, some (.natural version) =>
    match toDict? Value.text? keys, toDict? (toList? Value.text?) roles,
      toDict? Target.ofValue? targets with
    | some keys, some roles, some targets => some ⟨keys, roles, targets, version⟩
    | _, _, _ => none
  | _, _, _, _ => none

def LocalKey.ofValue? (v : Value) : Option LocalKey :=
  match v.field? "role", v.field? "gun", v.field? "id" with
  | some (.text role), some (.text gun), some (.text id) => some ⟨role, gun, id⟩
  | _, _, _ => none

def Staged.ofValue? (v : Value) : Option Staged :=
  match v.field? "name", v.field? "target" with
  | some (.text name), some target => (Target.ofValue? target).map (fun t => ⟨name, t⟩)
  | _, _ => none

def Login.ofValue? (v : Value) : Option Login :=
  match v.field? "username", v.field? "password" with
  | some (.text username), some (.text password) => some ⟨username, password⟩
  | _, _ => none

/-- What a text of a shape says. -/
def readAs {α : Type} (shape : Shape) (ofValue? : Value → Option α) (text : String) :
    Except Fault α :=
  match Json.read shape text with
  | .error fault => .error fault
  | .ok v =>
    match ofValue? v with
    | none => .error .wrongShape
    | some a => .ok a

end Notary
end TrustTrial
