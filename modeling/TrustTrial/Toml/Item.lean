/-!
# TrustTrial.Toml.Item

TOML documents as trees. What a table may still be extended by depends on how it came about, so a
table remembers that: by its own header, as the parent of a header, or as the parent of a dotted
key. Tables written inline are closed.
-/

namespace TrustTrial
namespace Toml

inductive Origin where
  | header
  | headerParent
  | dottedParent
  deriving DecidableEq, Repr

inductive Item where
  | text (s : String)
  | integer (z : Int)
  | float
  | boolean
  | moment
  | array (items : List Item)
  | inline (entries : List (String × Item))
  | table (origin : Origin) (entries : List (String × Item))
  | tables (rows : List (List (String × Item)))

abbrev Entries := List (String × Item)

def find? (k : String) : Entries → Option Item
  | [] => none
  | e :: es => if e.1 = k then some e.2 else find? k es

/-- Puts an item in the place of the one at a key, or at the end. -/
def set (k : String) (item : Item) : Entries → Entries
  | [] => [(k, item)]
  | e :: es => if e.1 = k then (k, item) :: es else e :: set k item es

def remove (k : String) (es : Entries) : Entries := es.filter (fun e => e.1 ≠ k)

/-- Applies `f` to the table at a path below a table, creating the tables on the way. The path is
that of a dotted key or of a header; a dotted key does not reach into a table with a header. -/
def atPath {α : Type} (origin : Origin) (f : Origin → Entries → Option (Entries × α)) :
    List String → Origin → Entries → Option (Entries × α)
  | [], own, es => f own es
  | k :: path, _, es =>
    match find? k es with
    | none =>
      match atPath origin f path origin [] with
      | none => none
      | some (sub, a) => some (set k (.table origin sub) es, a)
    | some (.table own sub) =>
      if origin = .dottedParent ∧ own = .header then none
      else
        match atPath origin f path own sub with
        | none => none
        | some (sub, a) => some (set k (.table own sub) es, a)
    | some (.tables rows) =>
      match rows.getLast? with
      | none => none
      | some last =>
        match atPath origin f path .header last with
        | none => none
        | some (last, a) => some (set k (.tables (rows.dropLast ++ [last])) es, a)
    | some _ => none

/-- Adds an entry at a dotted key below a table, which must not have it. -/
def addEntry (path : List String) (k : String) (item : Item) (own : Origin) (es : Entries) :
    Option Entries :=
  let add (own : Origin) (es : Entries) : Option (Entries × Unit) :=
    if (own = .dottedParent) = (path = []) then none
    else
      match find? k es with
      | some _ => none
      | none => some (set k item es, ())
  (atPath .dottedParent add path own es).map (·.1)

/-! ## Documents under construction -/

/-- The finished part of a document and the table being filled: where it belongs, and whether it
is a row of an array of tables. -/
structure Draft where
  root : Entries
  path : List String
  isRow : Bool
  current : Entries

def Draft.start : Draft := ⟨[], [], false, []⟩

/-- Puts the table being filled into the document. -/
def Draft.finish (d : Draft) : Option Entries :=
  match d.path.getLast? with
  | none => some d.current
  | some k =>
    let put (_ : Origin) (es : Entries) : Option (Entries × Unit) :=
      if d.isRow then
        match find? k es with
        | none => some (set k (.tables [d.current]) es, ())
        | some (.tables rows) => some (set k (.tables (rows ++ [d.current])) es, ())
        | some _ => none
      else
        match find? k es with
        | none | some (.table .headerParent _) => some (set k (.table .header d.current) es, ())
        | some _ => none
    (atPath .headerParent put d.path.dropLast .header d.root).map (·.1)

/-- Adds `path.k = item` to the table being filled. -/
def Draft.addEntry (d : Draft) (path : List String) (k : String) (item : Item) : Option Draft :=
  match Toml.addEntry path k item .header d.current with
  | none => none
  | some es => some { d with current := es }

/-- Begins the table of a header `[path.k]`. -/
def Draft.openTable (d : Draft) (path : List String) (k : String) : Option Draft :=
  let take (_ : Origin) (es : Entries) : Option (Entries × Entries) :=
    match find? k es with
    | none => some (es, [])
    | some (.table .headerParent sub) => some (remove k es, sub)
    | some _ => none
  match d.finish with
  | none => none
  | some root =>
    match atPath .headerParent take path .header root with
    | none => none
    | some (root, sub) => some ⟨root, path ++ [k], false, sub⟩

/-- Begins a row of the array of tables of a header `[[path.k]]`. -/
def Draft.openRow (d : Draft) (path : List String) (k : String) : Option Draft :=
  let prepare (_ : Origin) (es : Entries) : Option (Entries × Unit) :=
    match find? k es with
    | none => some (set k (.tables []) es, ())
    | some (.tables _) => some (es, ())
    | some _ => none
  match d.finish with
  | none => none
  | some root =>
    match atPath .headerParent prepare path .header root with
    | none => none
    | some (root, _) => some ⟨root, path ++ [k], true, []⟩

end Toml
end TrustTrial
