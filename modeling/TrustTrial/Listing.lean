import TrustTrial.Dict
import TrustTrial.Failure
import TrustTrial.Text.Blank

/-!
# TrustTrial.Listing

What the client's tables say. Every row that is not blank is an entry; columns are separated by
blanks. A key table has the role in its first column, a target table the name in its first and the
role in its last.
-/

namespace TrustTrial

def rootRole : String := "root"

def targetsRole : String := "targets"

/-- A row of a key table; the whole trimmed row tells keys apart. -/
structure KeyRow where
  role : String
  line : String
  deriving DecidableEq, Repr

structure TargetRow where
  name : String
  role : String
  line : String
  deriving DecidableEq, Repr

namespace KeyListing

def read (output : String) : List KeyRow :=
  (Text.rows output).map (fun line => ⟨Text.firstWord line, line⟩)

def ofRole (role : String) (rows : List KeyRow) : List KeyRow :=
  rows.filter (fun row => row.role = role)

def rootRows (rows : List KeyRow) : List KeyRow := ofRole rootRole rows

/-- The only root row. -/
def singleRoot (rows : List KeyRow) : Except Failure KeyRow :=
  match rootRows rows with
  | [row] => .ok row
  | found => .error (.violated (.rootRows (found.map KeyRow.line)))

/-- The root rows that are not known yet. -/
def newRootRows (known : List String) (rows : List KeyRow) : List KeyRow :=
  (rootRows rows).filter (fun row => !known.contains row.line)

end KeyListing

namespace TargetListing

def read (output : String) : List TargetRow :=
  (Text.rows output).map (fun line => ⟨Text.firstWord line, Text.lastWord line, line⟩)

def hasName (name : String) (rows : List TargetRow) : Bool := rows.any (fun row => row.name = name)

/-- How many rows have a name and a role. -/
def count (name role : String) (rows : List TargetRow) : Nat :=
  rows.countP (fun row => row.name = name ∧ row.role = role)

/-- The distinct rows in ascending order. -/
def lineSet (rows : List TargetRow) : List String :=
  (Dict.ofList (rows.map (fun row => (row.line, ())))).keys

end TargetListing
end TrustTrial
