import TrustTrial.Disk.Access

/-!
# TrustTrial.Proofs.Places

Where paths lead. A path below another one leads on from where that one leads, and a path keeps
leading to its place as long as directories stay directories. What writing or removing a file does is
told by the place that its path leads to.
-/

namespace TrustTrial

/-! ## Parts -/

namespace Text

theorem partChars_of_not_mem {separator : Char} {s : List Char} (h : separator ∉ s) :
    partChars separator s = [s] := by
  induction s with
  | nil => rfl
  | cons c s ih =>
    rw [List.mem_cons, not_or] at h
    rw [partChars, if_neg (fun e => h.1 e.symm), ih h.2]

theorem notMem_of_mem_partChars {separator : Char} {part s : List Char}
    (h : part ∈ partChars separator s) : separator ∉ part := by
  induction s generalizing part with
  | nil =>
    cases List.mem_singleton.1 h
    exact List.not_mem_nil
  | cons c s ih =>
    rw [partChars] at h
    split at h
    · rcases List.mem_cons.1 h with rfl | h
      · exact List.not_mem_nil
      · exact ih h
    · rename_i hc
      cases hparts : partChars separator s with
      | nil => exact absurd hparts (partChars_ne_nil separator s)
      | cons p ps =>
        rw [hparts] at h ih
        rcases List.mem_cons.1 h with rfl | h
        · rw [List.mem_cons, not_or]
          exact ⟨fun he => hc he.symm, ih List.mem_cons_self⟩
        · exact ih (List.mem_cons_of_mem _ h)

/-- A character at the end of a text goes to its last part. -/
theorem partChars_concat {separator c : Char} (hc : c ≠ separator) (s : List Char) :
    ∃ front last, partChars separator s = front ++ [last] ∧
      partChars separator (s ++ [c]) = front ++ [last ++ [c]] := by
  induction s with
  | nil =>
    refine ⟨[], [], rfl, ?_⟩
    rw [List.nil_append, partChars, if_neg hc]
    rfl
  | cons d s ih =>
    obtain ⟨front, last, hs, hconcat⟩ := ih
    by_cases hd : d = separator
    · refine ⟨[] :: front, last, ?_, ?_⟩
      · rw [partChars, if_pos hd, hs, List.cons_append]
      · rw [List.cons_append, partChars, if_pos hd, hconcat, List.cons_append]
    · rw [List.cons_append, partChars, partChars, if_neg hd, if_neg hd, hs, hconcat]
      cases front with
      | nil => exact ⟨[], d :: last, rfl, rfl⟩
      | cons part front => exact ⟨(d :: part) :: front, last, rfl, rfl⟩

theorem parted_of_not_mem {separator : Char} {s : String} (h : separator ∉ s.toList) :
    parted separator s = [s] := by
  rw [parted, partChars_of_not_mem h, List.map_singleton, String.ofList_toList]

theorem parted_append (separator : Char) (a b : String) :
    parted separator (a ++ String.singleton separator ++ b) =
      parted separator a ++ parted separator b := by
  simp only [parted, String.toList_append, String.toList_singleton, List.append_assoc,
    List.singleton_append, partChars_append_cons, List.map_append]

end Text

namespace Disk
namespace Path

@[simp] theorem isAbsolute_append {a b : String} (h : a ≠ "") :
    isAbsolute (a ++ b) = isAbsolute a := by
  have htoList : a.toList ≠ [] := by simpa using h
  obtain ⟨c, s, hs⟩ := List.exists_cons_of_ne_nil htoList
  simp only [isAbsolute, String.toList_append, hs, List.cons_append]
  by_cases hc : c = '/' <;> simp [hc]

theorem isAbsolute_join {base path : String} (hbase : base ≠ "") (hpath : isAbsolute path = false) :
    isAbsolute (join base path) = isAbsolute base := by
  rw [join, hpath]
  simp only [Bool.false_eq_true, if_false]
  split
  · exact isAbsolute_append hbase
  · rw [isAbsolute_append (by simp [hbase]), isAbsolute_append hbase]

/-- A path that ends in a slash has an empty last part. -/
theorem eq_of_endsInSlash {path : String} (h : endsInSlash path = true) :
    ∃ front, path = front ++ "/" := by
  simp only [endsInSlash] at h
  split at h
  · rename_i hlast
    obtain ⟨front, hfront⟩ := List.getLast?_eq_some_iff.1 hlast
    refine ⟨.ofList front, ?_⟩
    apply String.toList_injective
    simp [hfront]
  · cases h

theorem parts_slash (front path : String) :
    parts (front ++ "/" ++ path) = parts front ++ parts path :=
  Text.parted_append '/' front path

theorem join_eq {base path : String} (hbase : base ≠ "") (hpath : isAbsolute path = false) :
    ∃ front, join base path = front ++ "/" ++ path ∧ (base = front ∨ base = front ++ "/") := by
  rw [join, hpath]
  by_cases hslash : endsInSlash base = true
  · obtain ⟨front, hfront⟩ := eq_of_endsInSlash hslash
    refine ⟨front, ?_, .inr hfront⟩
    rw [hslash, hfront]
    simp
  · refine ⟨base, ?_, .inl rfl⟩
    have hempty : base.isEmpty = false := by simpa using hbase
    simp [hslash, hempty]

end Path

namespace Tree

/-! ## Walks -/

theorem step_eq_ok {t : Tree} {place next : Location} {part : String}
    (h : t.step place part = .ok next) : t.find? place = some .directory := by
  simp only [step] at h
  split at h
  · cases h
  · cases h
  · assumption

theorem step_empty {t : Tree} {place next : Location} (h : t.step place "" = .ok next) :
    next = place := by
  have hdir := step_eq_ok h
  simp only [step, hdir, true_or, if_true] at h
  cases h
  rfl

theorem step_name {t : Tree} {place : Location} {name : String}
    (hdir : t.find? place = some .directory) (hempty : name ≠ "") (hdot : name ≠ ".")
    (hdots : name ≠ "..") (hshort : name.utf8ByteSize ≤ longestName) :
    t.step place name = .ok (place ++ [name]) := by
  simp only [step, hdir, hempty, hdot, hdots, or_self, if_false]
  rw [if_neg (Nat.not_lt.2 hshort)]

theorem step_mono {t u : Tree}
    (hkeep : ∀ place, t.find? place = some .directory → u.find? place = some .directory)
    {place next : Location} {part : String} (h : t.step place part = .ok next) :
    u.step place part = .ok next := by
  have hdir := step_eq_ok h
  rw [step, hkeep place hdir]
  rw [step, hdir] at h
  exact h

/-- A walk leads to the same place wherever the directories are still directories. -/
theorem walk_mono {t u : Tree}
    (hkeep : ∀ place, t.find? place = some .directory → u.find? place = some .directory)
    {place last : Location} {parts : List String} (h : t.walk place parts = .ok last) :
    u.walk place parts = .ok last := by
  induction parts generalizing place with
  | nil => exact h
  | cons part parts ih =>
    simp only [walk] at h ⊢
    split at h
    · cases h
    · rename_i next hstep
      rw [step_mono hkeep hstep]
      exact ih h

theorem locate_mono {t u : Tree}
    (hkeep : ∀ place, t.find? place = some .directory → u.find? place = some .directory)
    {here place : Location} {path : String} (h : t.locate here path = .ok place) :
    u.locate here path = .ok place := by
  simp only [locate] at h ⊢
  split at h
  · cases h
  · exact walk_mono hkeep h

theorem locate_eq_ok {t : Tree} {here place : Location} {path : String}
    (h : t.locate here path = .ok place) :
    refuse? path = none ∧
      t.walk (if Path.isAbsolute path then [] else here) (Path.parts path) = .ok place := by
  simp only [locate] at h
  split at h
  · cases h
  · rename_i hrefuse
    exact ⟨hrefuse, h⟩

theorem ne_empty_of_refuse? {path : String} (h : refuse? path = none) : path ≠ "" := by
  rintro rfl
  exact nomatch h

/-- A slash at the end of a path leads no further. -/
theorem walk_front {t : Tree} {place dir : Location} {base front : String}
    (h : t.walk place (Path.parts base) = .ok dir) (hbase : base = front ∨ base = front ++ "/") :
    t.walk place (Path.parts front) = .ok dir := by
  rcases hbase with rfl | rfl
  · exact h
  · have hparts : Path.parts (front ++ "/") = Path.parts front ++ [""] := by
      have hslash := Path.parts_slash front ""
      rwa [String.append_empty, show Path.parts "" = [""] from rfl] at hslash
    rw [hparts, walk_append] at h
    split at h
    · cases h
    · rename_i last hfront
      -- The empty part at the end stays where it is.
      simp only [walk] at h
      split at h
      · cases h
      · rename_i next hstep
        cases h
        rw [hfront, step_empty hstep]

/-- A path below another one leads on from there. -/
theorem locate_join {t : Tree} {here dir : Location} {base path : String}
    (hbase : t.locate here base = .ok dir) (hpath : Path.isAbsolute path = false)
    (hrefuse : refuse? (Path.join base path) = none) :
    t.locate here (Path.join base path) = t.walk dir (Path.parts path) := by
  obtain ⟨hrefuse', hwalk⟩ := locate_eq_ok hbase
  have hne := ne_empty_of_refuse? hrefuse'
  obtain ⟨front, hjoin, hfront⟩ := Path.join_eq hne hpath
  rw [locate, hrefuse]
  simp only [Path.isAbsolute_join hne hpath]
  rw [hjoin, Path.parts_slash, walk_append, walk_front hwalk hfront]

end Tree

namespace Path

/-- A name that can stand for an entry of a directory. -/
structure Plain (name : String) : Prop where
  single : '/' ∉ name.toList
  named : name ≠ ""
  notDot : name ≠ "."
  notDots : name ≠ ".."
  short : name.utf8ByteSize ≤ Tree.longestName

instance (name : String) : Decidable (Plain name) :=
  decidable_of_iff ('/' ∉ name.toList ∧ name ≠ "" ∧ name ≠ "." ∧ name ≠ ".." ∧
      name.utf8ByteSize ≤ Tree.longestName)
    ⟨fun ⟨single, named, notDot, notDots, short⟩ => ⟨single, named, notDot, notDots, short⟩,
      fun h => ⟨h.single, h.named, h.notDot, h.notDots, h.short⟩⟩

theorem Plain.parts {name : String} (h : Plain name) : parts name = [name] :=
  Text.parted_of_not_mem h.single

theorem Plain.isAbsolute {name : String} (h : Plain name) : isAbsolute name = false := by
  rw [Path.isAbsolute]
  split
  · rename_i hslash
    exact (h.single (by rw [hslash]; exact List.mem_cons_self)).elim
  · rfl

end Path

namespace Tree

theorem walk_name {t : Tree} {place : Location} {name : String} (hname : Path.Plain name)
    (hdir : t.find? place = some .directory) : t.walk place [name] = .ok (place ++ [name]) := by
  rw [walk, step_name hdir hname.named hname.notDot hname.notDots hname.short]
  rfl

theorem locate_name {t : Tree} {here dir : Location} {base name : String}
    (hbase : t.locate here base = .ok dir) (hdir : t.find? dir = some .directory)
    (hname : Path.Plain name) (hrefuse : refuse? (Path.join base name) = none) :
    t.locate here (Path.join base name) = .ok (dir ++ [name]) := by
  rw [locate_join hbase hname.isAbsolute hrefuse, hname.parts, walk_name hname hdir]

theorem look_of_locate {t : Tree} {here place : Location} {path : String}
    (h : t.locate here path = .ok place) :
    t.look here path = match t.find? place with
      | none => .error .missing
      | some node => .ok node := by
  cases hfind : t.find? place <;> simp only [look, h, hfind]

theorem look_eq_ok {t : Tree} {here : Location} {path : String} {node : Node} :
    t.look here path = .ok node ↔
      ∃ place, t.locate here path = .ok place ∧ t.find? place = some node := by
  rw [look]
  cases t.locate here path with
  | error fault => simp
  | ok place => cases h : t.find? place <;> simp [h]

/-! ## Writing and removing -/

section Files

variable {t u : Tree} {here place other : Location} {path : String} {data : ByteArray}

/-- The root is a directory. -/
theorem ne_nil_of_find? (h : t.find? place ≠ some .directory) : place ≠ [] := by
  rintro rfl
  exact h rfl

theorem find?_put_of_ne (hplace : place ≠ []) (node : Node) (hne : other ≠ place) :
    (t.put place node).find? other = t.find? other := by rw [find?_put t hplace, if_neg hne]

theorem find?_put_self (hplace : place ≠ []) (node : Node) :
    (t.put place node).find? place = some node := by rw [find?_put t hplace, if_pos rfl]

/-- Whether what is written to a place can be executed. -/
def executable : Option Node → Bool
  | some (.file _ executable) => executable
  | _ => false

theorem write_eq (hlocate : t.locate here path = .ok place) (hnode : t.find? place ≠ some .directory)
    (data : ByteArray) : t.write here path data =
      .ok (t.put place (.file data (executable (t.find? place)))) := by
  rw [write, hlocate]
  cases hfind : t.find? place with
  | none => simp only [hfind, executable]
  | some node =>
    cases node with
    | directory => exact absurd hfind hnode
    | file old executable => simp only [hfind, Tree.executable]

theorem write_directory (hlocate : t.locate here path = .ok place)
    (hnode : t.find? place = some .directory) (data : ByteArray) :
    t.write here path data = .error .isDirectory := by
  rw [write, hlocate]
  simp only [hnode]

/-- All that writing a file can do. -/
theorem write_eq_ok : t.write here path data = .ok u ↔
    ∃ place, t.locate here path = .ok place ∧ t.find? place ≠ some .directory ∧
      u = t.put place (.file data (executable (t.find? place))) := by
  constructor
  · intro h
    cases hlocate : t.locate here path with
    | error fault =>
      rw [write, hlocate] at h
      cases h
    | ok place =>
      by_cases hnode : t.find? place = some .directory
      · rw [write_directory hlocate hnode] at h
        cases h
      · rw [write_eq hlocate hnode] at h
        exact ⟨place, rfl, hnode, (Except.ok.inj h).symm⟩
  · rintro ⟨place, hlocate, hnode, rfl⟩
    exact write_eq hlocate hnode data

theorem removeFile_eq (hlocate : t.locate here path = .ok place) {executable : Bool}
    (hnode : t.find? place = some (.file data executable)) :
    t.removeFile here path = .ok (t.remove place) := by
  rw [removeFile, hlocate]
  simp only [hnode]

/-- All that removing a file can do. -/
theorem removeFile_eq_ok : t.removeFile here path = .ok u ↔
    ∃ place data executable, t.locate here path = .ok place ∧
      t.find? place = some (.file data executable) ∧ u = t.remove place := by
  constructor
  · intro h
    rw [removeFile] at h
    split at h
    · cases h
    · rename_i place hlocate
      split at h
      · cases h
      · cases h
      · rename_i hnode
        exact ⟨place, _, _, hlocate, hnode, (Except.ok.inj h).symm⟩
  · rintro ⟨place, data, executable, hlocate, hnode, rfl⟩
    exact removeFile_eq hlocate hnode

/-- All that removing a directory can do. -/
theorem removeDirectory_eq_ok : t.removeDirectory here path = .ok u ↔
    ∃ place, t.locate here path = .ok place ∧ t.find? place = some .directory ∧
      u = t.remove place := by
  constructor
  · intro h
    rw [removeDirectory] at h
    split at h
    · cases h
    · rename_i place hlocate
      split at h
      · cases h
      · rename_i hnode
        exact ⟨place, hlocate, hnode, (Except.ok.inj h).symm⟩
      · cases h
  · rintro ⟨place, hlocate, hnode, rfl⟩
    rw [removeDirectory, hlocate]
    simp only [hnode]

end Files

end Tree
end Disk
end TrustTrial
