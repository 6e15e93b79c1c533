import TrustTrial.Disk.Fault
import TrustTrial.Disk.Path

/-!
# TrustTrial.Disk.Tree

A tree of directories and files. A place in it is the list of names that lead there from the root,
which always exists. A path is walked part by part; what it passes must be directories.
-/

namespace TrustTrial
namespace Disk

abbrev Location := List String

inductive Node where
  | directory
  | file (data : ByteArray) (executable : Bool)

structure Tree where
  nodes : List (Location × Node)

def findNode (place : Location) : List (Location × Node) → Option Node
  | [] => none
  | n :: ns => if n.1 = place then some n.2 else findNode place ns

def putNode (place : Location) (node : Node) : List (Location × Node) → List (Location × Node)
  | [] => [(place, node)]
  | n :: ns => if n.1 = place then (place, node) :: ns else n :: putNode place node ns

namespace Tree

def empty : Tree := ⟨[]⟩

def find? (t : Tree) (place : Location) : Option Node :=
  match place with
  | [] => some .directory
  | place => findNode place t.nodes

def put (t : Tree) (place : Location) (node : Node) : Tree := ⟨putNode place node t.nodes⟩

/-- Takes away what is at a place and everything below it. -/
def remove (t : Tree) (place : Location) : Tree :=
  ⟨t.nodes.filter (fun n => !place.isPrefixOf n.1)⟩

/-! ## Walking -/

def longestName : Nat := 255

def longestPath : Nat := 4095

/-- One step of a walk from a place that has to be a directory. -/
def step (t : Tree) (place : Location) (part : String) : Except Fault Location :=
  match t.find? place with
  | none => .error .missing
  | some (.file _ _) => .error .notDirectory
  | some .directory =>
    if part = "" ∨ part = "." then .ok place
    else if part = ".." then .ok place.dropLast
    else if longestName < part.utf8ByteSize then .error .nameTooLong
    else .ok (place ++ [part])

def walk (t : Tree) : Location → List String → Except Fault Location
  | place, [] => .ok place
  | place, part :: parts =>
    match t.step place part with
    | .error fault => .error fault
    | .ok place => t.walk place parts

/-- Faults of a path that show before anything is looked up. -/
def refuse? (path : String) : Option Fault :=
  if Path.hasNul path then some .nulInPath
  else if path = "" then some .missing
  else if longestPath < path.utf8ByteSize then some .nameTooLong
  else none

/-- The place that a path names, seen from a working directory. There need not be anything. -/
def locate (t : Tree) (here : Location) (path : String) : Except Fault Location :=
  match refuse? path with
  | some fault => .error fault
  | none => t.walk (if Path.isAbsolute path then [] else here) (Path.parts path)

/-- What a path leads to. -/
def look (t : Tree) (here : Location) (path : String) : Except Fault Node :=
  match t.locate here path with
  | .error fault => .error fault
  | .ok place =>
    match t.find? place with
    | none => .error .missing
    | some node => .ok node

/-! ## Lemmas -/

theorem findNode_putNode (place : Location) (node : Node) (ns : List (Location × Node))
    (other : Location) :
    findNode other (putNode place node ns) =
      if other = place then some node else findNode other ns := by
  induction ns with
  | nil =>
    simp only [putNode, findNode]
    split
    · rename_i h
      rw [if_pos h.symm]
    · rename_i h
      rw [if_neg (fun e => h e.symm)]
  | cons n ns ih =>
    simp only [putNode]
    split
    · rename_i hn
      simp only [findNode]
      split
      · rename_i h
        rw [if_pos h.symm]
      · rename_i h
        rw [if_neg (fun e => h e.symm), if_neg (fun e => h (hn.symm.trans e))]
    · rename_i hn
      simp only [findNode, ih]
      split
      · rename_i h
        exact (if_neg fun e : other = place => hn (h.trans e)).symm
      · rfl

theorem find?_put (t : Tree) {place : Location} (h : place ≠ []) (node : Node)
    (other : Location) :
    (t.put place node).find? other = if other = place then some node else t.find? other := by
  cases other with
  | nil => rw [if_neg (fun e => h e.symm)]; rfl
  | cons name names => exact findNode_putNode place node t.nodes (name :: names)

theorem findNode_filter_of_prefix (place : Location) (ns : List (Location × Node))
    (other : Location) :
    findNode other (ns.filter (fun n => !place.isPrefixOf n.1)) =
      if place.isPrefixOf other then none else findNode other ns := by
  induction ns with
  | nil => simp [findNode]
  | cons n ns ih =>
    simp only [List.filter_cons, findNode]
    by_cases hn : n.1 = other
    · subst hn
      split <;> rename_i h <;> simp_all [findNode]
    · split
      · simp only [findNode, if_neg hn, ih]
      · simp only [ih]

theorem find?_remove (t : Tree) {place : Location} (h : place ≠ []) (other : Location) :
    (t.remove place).find? other =
      if place.isPrefixOf other then none else t.find? other := by
  cases other with
  | nil =>
    cases place with
    | nil => exact absurd rfl h
    | cons name names => rfl
  | cons name names => exact findNode_filter_of_prefix place t.nodes (name :: names)

theorem walk_append (t : Tree) (place : Location) (a b : List String) :
    t.walk place (a ++ b) =
      match t.walk place a with
      | .error fault => .error fault
      | .ok place => t.walk place b := by
  induction a generalizing place with
  | nil => rfl
  | cons part a ih =>
    simp only [List.cons_append, walk]
    cases t.step place part with
    | error fault => rfl
    | ok place => exact ih place

end Tree
end Disk
end TrustTrial
