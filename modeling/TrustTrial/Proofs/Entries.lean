import TrustTrial.Proofs.Places
import TrustTrial.Proofs.Script

/-!
# TrustTrial.Proofs.Entries

The temporary entries of a trial, by their numbers: the primary identity is number 0, and scenario
number `k` has its payload at `2 * k + 1` and its secondary identity at `2 * k + 2`.

`Room` says that a disk has room for them: the directory for temporary files is there, and nothing
stands in their places. As long as the directories of that disk are still there (`Kept`), their
paths lead to their places, whatever has become of the entries themselves.
-/

namespace TrustTrial
namespace Trial

open Disk

variable {σ : Type}

/-! ## Names and places -/

def entryEnding : Nat → String
  | 0 => "_main"
  | n + 1 => if n % 2 = 0 then "" else "_temp"

def entryName (m : Machine σ) (n : Nat) : String := ".tmp" ++ m.tempName n ++ entryEnding n

/-- The path of an entry. -/
def entry (m : Machine σ) (n : Nat) : String := Path.join m.tempDir (entryName m n)

/-- Where an entry belongs, given the place of the directory for temporary files. -/
def entryPlace (m : Machine σ) (dir : Location) (n : Nat) : Location := dir ++ [entryName m n]

theorem entryEnding_payload (k : Nat) : entryEnding (2 * k + 1) = "" := by
  simp [entryEnding]

theorem entryEnding_secondary (k : Nat) : entryEnding (2 * k + 2) = "_temp" := by
  have hodd : ¬(2 * k + 1) % 2 = 0 := by omega
  rw [entryEnding, if_neg hodd]

theorem entryPath_eq_entry (m : Machine σ) (n : Nat) :
    entryPath m (entryEnding n) n = entry m n := rfl

theorem primaryOf_eq (m : Machine σ) : primaryOf m = ⟨"main", entry m 0⟩ := rfl

theorem standOf_eq (m : Machine σ) (k : Nat) :
    standOf m k = ⟨entry m (2 * k + 1), ⟨"temp", entry m (2 * k + 2)⟩⟩ := by
  rw [standOf, ← entryPath_eq_entry, ← entryPath_eq_entry, entryEnding_payload,
    entryEnding_secondary]

/-- Room for `count` entries in the directory for temporary files, which is at `dir`. -/
structure Room (m : Machine σ) (count : Nat) (dir : Location) (disk : Tree) : Prop where
  found : disk.locate m.here m.tempDir = .ok dir
  directory : disk.find? dir = some .directory
  plain : ∀ n < count, Path.Plain (entryName m n)
  fits : ∀ n < count, Tree.refuse? (entry m n) = none
  distinct : ∀ i < count, ∀ j < count, entryName m i = entryName m j → i = j
  free : ∀ n < count, ∀ place, entryPlace m dir n <+: place → disk.find? place = none

/-- The directories of one disk are still directories of another. -/
def Kept (disk disk' : Tree) : Prop :=
  ∀ place, disk.find? place = some .directory → disk'.find? place = some .directory

theorem entryPlace_ne_nil (m : Machine σ) (dir : Location) (n : Nat) : entryPlace m dir n ≠ [] := by
  simp [entryPlace]

section Room

variable {m : Machine σ} {count : Nat} {dir : Location} {disk t : Tree} {i j n : Nat}

theorem Room.place_inj (room : Room m count dir disk) (hi : i < count) (hj : j < count) :
    entryPlace m dir i <+: entryPlace m dir j ↔ i = j := by
  constructor
  · intro h
    have hlength : (entryPlace m dir i).length = (entryPlace m dir j).length := by
      simp [entryPlace]
    have hplace := h.eq_of_length hlength
    simp only [entryPlace, List.append_cancel_left_eq, List.cons.injEq, and_true] at hplace
    exact room.distinct i hi j hj hplace
  · rintro rfl
    exact List.prefix_rfl

/-- No directory of the disk is at or below an entry. -/
theorem Room.not_prefix (room : Room m count dir disk) (hn : n < count) {place : Location}
    (hplace : disk.find? place = some .directory) : ¬entryPlace m dir n <+: place := by
  intro h
  rw [room.free n hn place h] at hplace
  cases hplace

theorem Room.locate_entry (room : Room m count dir disk) (hkept : Kept disk t) (hn : n < count) :
    t.locate m.here (entry m n) = .ok (entryPlace m dir n) :=
  Tree.locate_name (Tree.locate_mono hkept room.found) (hkept dir room.directory)
    (room.plain n hn) (room.fits n hn)

theorem Room.look_entry (room : Room m count dir disk) (hkept : Kept disk t) (hn : n < count) :
    t.look m.here (entry m n) = match t.find? (entryPlace m dir n) with
      | none => .error .missing
      | some node => .ok node :=
  Tree.look_of_locate (room.locate_entry hkept hn)

/-! ## Making and removing entries -/

theorem Room.find?_put (room : Room m count dir disk) (hi : i < count) (hj : j < count)
    (node : Node) :
    (t.put (entryPlace m dir i) node).find? (entryPlace m dir j) =
      if j = i then some node else t.find? (entryPlace m dir j) := by
  rw [Tree.find?_put t (entryPlace_ne_nil m dir i)]
  by_cases h : j = i
  · simp [h]
  · rw [if_neg h, if_neg]
    intro hplace
    exact h ((room.place_inj hj hi).1 (hplace ▸ List.prefix_rfl))

theorem Room.find?_remove (room : Room m count dir disk) (hi : i < count) (hj : j < count) :
    (t.remove (entryPlace m dir i)).find? (entryPlace m dir j) =
      if j = i then none else t.find? (entryPlace m dir j) := by
  rw [Tree.find?_remove t (entryPlace_ne_nil m dir i)]
  by_cases h : j = i
  · rw [if_pos h, if_pos (List.isPrefixOf_iff_prefix.2 (h ▸ List.prefix_rfl))]
  · rw [if_neg h, if_neg]
    rw [List.isPrefixOf_iff_prefix, room.place_inj hi hj]
    exact fun e => h e.symm

theorem Room.create_entry (room : Room m count dir disk) (hkept : Kept disk t) (hn : n < count)
    (hnone : t.find? (entryPlace m dir n) = none) (node : Node) :
    t.create m.here (entry m n) node = .ok (t.put (entryPlace m dir n) node) := by
  simp only [Tree.create, room.locate_entry hkept hn, hnone]

theorem Room.removeFile_entry (room : Room m count dir disk) (hkept : Kept disk t)
    (hn : n < count) :
    t.removeFile m.here (entry m n) = match t.find? (entryPlace m dir n) with
      | none => .error .missing
      | some .directory => .error .isDirectory
      | some (.file _ _) => .ok (t.remove (entryPlace m dir n)) := by
  rcases hnode : t.find? (entryPlace m dir n) with _ | (_ | _) <;>
    simp only [Tree.removeFile, room.locate_entry hkept hn, hnode]

theorem Room.removeDirectory_entry (room : Room m count dir disk) (hkept : Kept disk t)
    (hn : n < count) :
    t.removeDirectory m.here (entry m n) = match t.find? (entryPlace m dir n) with
      | none => .error .missing
      | some .directory => .ok (t.remove (entryPlace m dir n))
      | some (.file _ _) => .error .notDirectory := by
  rcases hnode : t.find? (entryPlace m dir n) with _ | (_ | _) <;>
    simp only [Tree.removeDirectory, room.locate_entry hkept hn, hnode]

end Room

end Trial
end TrustTrial
