import TrustTrial.Dict
import TrustTrial.Disk.Access
import TrustTrial.Failure
import TrustTrial.Json.Reader
import TrustTrial.Listing

/-!
# TrustTrial.RootDocument

The signed root metadata that a client keeps in its trust directory: all keys it knows, and for
every role the ids of the keys trusted for it.
-/

namespace TrustTrial

structure RootDocument where
  keys : Dict Json.Value
  roles : Dict (List String)

namespace RootDocument

def shape : Json.Shape :=
  .record [("signed", .record [
    ("keys", .dictOf .anything),
    ("roles", .dictOf (.record [("keyids", .listOf .text)]))])]

def keyIds? (role : Json.Value) : Option (List String) :=
  match role.field? "keyids" with
  | none => none
  | some ids =>
    match ids.list? with
    | none => none
    | some ids => ids.mapM Json.Value.text?

/-- A document from a value of the shape above. -/
def ofValue? (v : Json.Value) : Option RootDocument :=
  match v.field? "signed" with
  | none => none
  | some signed =>
    match signed.field? "keys", signed.field? "roles" with
    | some (.object keys), some (.object roles) =>
      match roles.mapM (fun role => (keyIds? role.2).map (fun ids => (role.1, ids))) with
      | none => none
      | some roles => some ⟨.ofList keys, .ofList roles⟩
    | _, _ => none

def read (text : String) : Except Json.Fault RootDocument :=
  match Json.read shape text with
  | .error fault => .error fault
  | .ok v =>
    match ofValue? v with
    | none => .error .wrongShape
    | some document => .ok document

/-- Where a client keeps the root document of a repository. -/
def path (trustDir repo : String) : String :=
  let below := Disk.Path.join
  below (below (below (below trustDir "tuf") repo) "metadata") "root.json"

/-- The root document of a repository in a trust directory. -/
def load (t : Disk.Tree) (here : Disk.Location) (trustDir repo : String) :
    Except Failure RootDocument :=
  let file := path trustDir repo
  match t.readText here file with
  | .error fault => .error (.metadata file (.unreadable fault))
  | .ok text =>
    match read text with
    | .error fault => .error (.metadata file (.unfitting fault))
    | .ok document => .ok document

/-! ## What it says -/

/-- How many keys it knows, across all roles. -/
def keyCount (d : RootDocument) : Nat := d.keys.size

def hasKey (d : RootDocument) (key : String) : Bool := d.keys.contains key

/-- The key ids trusted for a role; none if the role is missing. -/
def trustedKeys (d : RootDocument) (role : String) : List String := (d.roles.get? role).getD []

/-- The only trusted root key. -/
def singleRootKey (d : RootDocument) : Except Failure String :=
  match d.trustedKeys rootRole with
  | [key] => .ok key
  | found => .error (.violated (.rootKeys found))

end RootDocument
end TrustTrial
