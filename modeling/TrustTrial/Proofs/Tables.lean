import TrustTrial.Listing
import TrustTrial.Notary.Table
import TrustTrial.Proofs.Dicts
import TrustTrial.Proofs.Texts

/-!
# TrustTrial.Proofs.Tables

The tables of the notary as a trial reads them. Every key and every target has a row of its own,
in which the words that a trial looks at are the ones that were printed; the rows of the headers
are never taken for others.
-/

namespace TrustTrial

namespace Notary

open Text

/-! ## Columns -/

/-- A text in a column of a row, and the rest of the row. -/
def column (width : Nat) (s rest : String) : String := padded width s ++ " " ++ rest

theorem toList_column (width : Nat) (s rest : String) :
    (column width s rest).toList =
      s.toList ++ (List.replicate (width - s.toList.length) ' ' ++ ' ' :: rest.toList) := by
  simp [column, padded]

theorem wordChars_append_replicate (a : List Char) (n : Nat) :
    wordChars (a ++ List.replicate n ' ') = wordChars a := by
  induction n with
  | zero => simp
  | succ n ih =>
    have hn := wordChars_append_blank (a ++ List.replicate n ' ') isBlank_space []
    rw [List.replicate_succ', ← List.append_assoc, hn, ih]
    simp [wordChars]

/-- The words of a row are those of its columns. -/
theorem wordChars_column (width : Nat) (s rest : String) :
    wordChars (column width s rest).toList = wordChars s.toList ++ wordChars rest.toList := by
  rw [toList_column, ← List.append_assoc, wordChars_append_blank _ isBlank_space,
    wordChars_append_replicate]

theorem mem_column {c : Char} {width : Nat} {s rest : String} (hs : c ∉ s.toList)
    (hrest : c ∉ rest.toList) (hc : c ≠ ' ') : c ∉ (column width s rest).toList := by
  simp [toList_column, hs, hrest, hc]

theorem getLast?_column {width : Nat} {s rest : String} (hrest : rest.toList ≠ []) :
    (column width s rest).toList.getLast? = rest.toList.getLast? := by
  obtain ⟨c, cs, h⟩ := List.exists_cons_of_ne_nil hrest
  simp [toList_column, h, List.getLast?_append, List.getLast?_cons]

theorem head?_column {width : Nat} {s rest : String} (hs : s.toList ≠ []) :
    (column width s rest).toList.head? = s.toList.head? := by
  obtain ⟨c, cs, h⟩ := List.exists_cons_of_ne_nil hs
  simp [toList_column, h]

/-! ## Rows -/

/-- A row as it stands in a table: one line without blanks at its ends. -/
structure Trimmed (row : String) : Prop where
  single : '\n' ∉ row.toList
  trim : trimChars row.toList = row.toList

theorem trimmed_empty : Trimmed "" := ⟨by simp, rfl⟩

/-- A row that begins with a word and does not end with a blank. -/
theorem trimmed_column {width : Nat} {s rest : String} (hs : Wordy s) (hrest : '\n' ∉ rest.toList)
    (hlast : ∃ c, rest.toList.getLast? = some c ∧ isBlank c = false) :
    Trimmed (column width s rest) := by
  obtain ⟨c, hc, hblank⟩ := hlast
  have hne : rest.toList ≠ [] := by
    intro h
    simp [h] at hc
  refine ⟨mem_column hs.single hrest (by decide), trimChars_eq ?_ ?_⟩
  · intro d hd
    rw [head?_column hs.nonempty] at hd
    exact hs.solid d (List.mem_of_head? hd)
  · intro d hd
    rw [getLast?_column hne, hc] at hd
    cases hd
    exact hblank

theorem lineChars_lines {rows : List String} (h : ∀ row ∈ rows, '\n' ∉ row.toList) :
    lineChars (lines rows).toList = rows.map String.toList := by
  induction rows with
  | nil => rfl
  | cons row rows ih =>
    have hsplit : (lines (row :: rows)).toList = row.toList ++ '\n' :: (lines rows).toList := by
      simp [lines]
    rw [hsplit, lineChars_append_newline, lineChars_line (h row List.mem_cons_self),
      ih fun r hr => h r (List.mem_cons_of_mem _ hr)]
    rfl

/-- The rows of a table are read back, but for empty ones. -/
theorem rows_lines {rows : List String} (h : ∀ row ∈ rows, Trimmed row) :
    Text.rows (lines rows) = rows.filter (fun row => row ≠ "") := by
  have htrim : (rows.map String.toList).map trimChars = rows.map String.toList := by
    rw [List.map_map]
    exact List.map_congr_left fun row hrow => (h row hrow).trim
  rw [Text.rows, rowChars, lineChars_lines fun row hrow => (h row hrow).single, htrim,
    List.filter_map, List.map_map]
  have hfilter : rows.filter ((fun row => !row.isEmpty) ∘ String.toList) =
      rows.filter (fun row => row ≠ "") := by
    congr 1
    funext row
    by_cases hrow : row = "" <;> simp [hrow]
  rw [hfilter]
  simp [Function.comp_def]

theorem lines_append (a b : List String) : lines (a ++ b) = lines a ++ lines b := by
  simp [lines]

theorem firstWord_column {s : String} (hs : Wordy s) (width : Nat) (rest : String) :
    firstWord (column width s rest) = s := by
  simp [firstWord, wordChars_column, wordChars_wordy hs]

theorem ne_empty_of_firstWord {row : String} (h : Wordy (firstWord row)) : row ≠ "" := by
  rintro rfl
  exact h.nonempty rfl

/-- The rows of the header are the first ones, and every other row comes after them. -/
theorem rows_table {header rows : List String} (hheader : ∀ row ∈ header, Trimmed row)
    (hrows : ∀ row ∈ rows, Trimmed row ∧ Wordy (firstWord row)) :
    Text.rows (lines header ++ lines rows) = Text.rows (lines header) ++ rows := by
  have hboth : ∀ row ∈ header ++ rows, Trimmed row :=
    List.forall_mem_append.2 ⟨hheader, fun row hrow => (hrows row hrow).1⟩
  have hall : rows.filter (fun row => row ≠ "") = rows := by
    rw [List.filter_eq_self]
    intro row hrow
    exact decide_eq_true (ne_empty_of_firstWord (hrows row hrow).2)
  rw [← lines_append, rows_lines hboth, rows_lines hheader, List.filter_append, hall]

/-! ## Keys -/

theorem keyRow_eq (role gun id location : String) :
    keyRow role gun id location = column 10 role (column 34 gun (column 34 id location)) := by
  simp [keyRow, column, String.append_assoc]

/-- Where the keys of a table lie. -/
def keyLocation (directory : String) : String := "file (" ++ directory ++ ")"

/-- The row of a key as a trial reads it. -/
def keyRowOf (directory : String) (k : LocalKey) : KeyRow :=
  ⟨k.role, keyRow k.role k.gun k.id (keyLocation directory)⟩

/-- A key whose row can be told from others. -/
structure LocalKey.Listable (k : LocalKey) : Prop where
  role : Wordy k.role
  gun : '\n' ∉ k.gun.toList
  id : Wordy k.id

theorem trimmed_keyRow {role gun id location : String} (hrole : Wordy role)
    (hgun : '\n' ∉ gun.toList) (hid : '\n' ∉ id.toList) (hlocation : '\n' ∉ location.toList)
    (hlast : ∃ c, location.toList.getLast? = some c ∧ isBlank c = false) :
    Trimmed (keyRow role gun id location) := by
  have hne : location.toList ≠ [] := by
    rintro h
    simp [h] at hlast
  have hrest : '\n' ∉ (column 34 id location).toList := mem_column hid hlocation (by decide)
  rw [keyRow_eq]
  refine trimmed_column hrole (mem_column hgun hrest (by decide)) ?_
  rw [getLast?_column (by simp [toList_column]), getLast?_column hne]
  exact hlast

theorem trimmed_keyRowOf {directory : String} (hdir : '\n' ∉ directory.toList) {k : LocalKey}
    (hk : k.Listable) : Trimmed (keyRowOf directory k).line := by
  refine trimmed_keyRow hk.role hk.gun hk.id.single ?_ ⟨')', ?_, by decide⟩
  · simp [keyLocation, hdir]
  · simp [keyLocation, List.getLast?_cons]

/-- A key that is known from its row: its role and id are words, and its gun, if it has one. -/
structure LocalKey.Solid (k : LocalKey) : Prop where
  role : Wordy k.role
  gun : k.gun = "" ∨ Wordy k.gun
  id : Wordy k.id

theorem LocalKey.Solid.listable {k : LocalKey} (h : k.Solid) : k.Listable := by
  refine ⟨h.role, ?_, h.id⟩
  rcases h.gun with hempty | hword
  · simp [hempty]
  · exact hword.single

/-- A column that is empty or a word is known from its words. -/
theorem eq_of_wordChars {s t : String} (hs : s = "" ∨ Wordy s) (ht : t = "" ∨ Wordy t)
    (h : wordChars s.toList = wordChars t.toList) : s = t := by
  have hempty : wordChars "".toList = [] := rfl
  rcases hs with rfl | hs <;> rcases ht with rfl | ht
  · rfl
  · rw [hempty, wordChars_wordy ht] at h
    cases h
  · rw [hempty, wordChars_wordy hs] at h
    cases h
  · rw [wordChars_wordy hs, wordChars_wordy ht] at h
    exact String.toList_injective (List.singleton_inj.1 h)

/-- The words of a row: the columns of the key, and those of its location. -/
theorem wordChars_line {k : LocalKey} (h : k.Solid) (directory : String) :
    wordChars (keyRowOf directory k).line.toList =
      k.role.toList :: (wordChars k.gun.toList ++ [k.id.toList]) ++
        wordChars (keyLocation directory).toList := by
  simp [keyRowOf, keyRow_eq, wordChars_column, wordChars_wordy h.role, wordChars_wordy h.id]

/-- Keys of one directory have the same row only if they are the same key. -/
theorem eq_of_line_eq {directory : String} {k l : LocalKey} (hk : k.Solid) (hl : l.Solid)
    (h : (keyRowOf directory k).line = (keyRowOf directory l).line) : k = l := by
  have hwords := congrArg (fun row => wordChars row.toList) h
  -- The location is the same for both, so the words before it are.
  simp only [wordChars_line hk, wordChars_line hl, List.append_cancel_right_eq, List.cons.injEq]
    at hwords
  obtain ⟨hrole, hrest⟩ := hwords
  obtain ⟨hgun, hid⟩ := List.append_inj' hrest rfl
  have hgun := eq_of_wordChars hk.gun hl.gun hgun
  have hrole := String.toList_injective hrole
  have hid := String.toList_injective (List.singleton_inj.1 hid)
  cases k
  cases l
  simp_all

theorem trimmed_keyHeader : ∀ row ∈ keyHeader, Trimmed row := by
  have hheads : Trimmed (keyRow "ROLE" "GUN" "KEY ID" "LOCATION") :=
    trimmed_keyRow (by decide) (by decide) (by decide) (by decide) ⟨'N', by decide, by decide⟩
  have hrules : Trimmed (keyRow "----" "---" "------" "--------") :=
    trimmed_keyRow (by decide) (by decide) (by decide) (by decide) ⟨'-', by decide, by decide⟩
  simp [keyHeader, hheads, hrules, trimmed_empty]

/-- The key table as it is printed. -/
def keyTable (directory : String) (keys : List LocalKey) : String :=
  lines keyHeader ++ lines (keyRows directory keys)

theorem firstWord_keyRow {role : String} (hrole : Wordy role) (gun id location : String) :
    firstWord (keyRow role gun id location) = role := by
  rw [keyRow_eq, firstWord_column hrole]

theorem read_keyTable {directory : String} {keys : List LocalKey} (hdir : '\n' ∉ directory.toList)
    (hkeys : ∀ k ∈ keys, k.Listable) :
    KeyListing.read (keyTable directory keys) =
      KeyListing.read (lines keyHeader) ++ keys.map (keyRowOf directory) := by
  have hwords : ∀ k ∈ keys, firstWord (keyRowOf directory k).line = k.role :=
    fun k hk => firstWord_keyRow (hkeys k hk).role _ _ _
  have hrows : ∀ row ∈ keyRows directory keys, Trimmed row ∧ Wordy (firstWord row) := by
    intro row hrow
    obtain ⟨k, hk, rfl⟩ := List.mem_map.1 hrow
    exact ⟨trimmed_keyRowOf hdir (hkeys k hk), (hwords k hk).symm ▸ (hkeys k hk).role⟩
  rw [KeyListing.read, keyTable, rows_table trimmed_keyHeader hrows, List.map_append, keyRows,
    List.map_map]
  congr 1
  refine List.map_congr_left fun k hk => ?_
  exact congrArg (KeyRow.mk · _) (hwords k hk)

theorem roles_keyHeader :
    (KeyListing.read (lines keyHeader)).map KeyRow.role = ["ROLE", "----"] := by
  have hheads : firstWord (keyRow "ROLE" "GUN" "KEY ID" "LOCATION") = "ROLE" :=
    firstWord_keyRow (by decide) _ _ _
  have hrules : firstWord (keyRow "----" "---" "------" "--------") = "----" :=
    firstWord_keyRow (by decide) _ _ _
  have hheads_ne := ne_empty_of_firstWord (hheads.symm ▸ (by decide : Wordy "ROLE"))
  have hrules_ne := ne_empty_of_firstWord (hrules.symm ▸ (by decide : Wordy "----"))
  rw [KeyListing.read, rows_lines trimmed_keyHeader]
  simp [keyHeader, hheads_ne, hrules_ne, hheads, hrules]

/-- Every key of a role has a row, and no other row has that role. -/
theorem ofRole_keyTable {directory : String} {keys : List LocalKey} {role : String}
    (hdir : '\n' ∉ directory.toList) (hkeys : ∀ k ∈ keys, k.Listable)
    (hrole : role ∉ ["ROLE", "----"]) :
    KeyListing.ofRole role (KeyListing.read (keyTable directory keys)) =
      (keys.filter (fun k => k.role = role)).map (keyRowOf directory) := by
  have hheader : (KeyListing.read (lines keyHeader)).filter (fun row => row.role = role) = [] := by
    rw [List.filter_eq_nil_iff]
    intro row hrow hsame
    rw [← roles_keyHeader, ← of_decide_eq_true hsame] at hrole
    exact hrole (List.mem_map_of_mem hrow)
  rw [read_keyTable hdir hkeys, KeyListing.ofRole, List.filter_append, hheader, List.nil_append,
    List.filter_map]
  rfl

/-! ## Targets -/

theorem targetRow_eq (name digest size role : String) :
    targetRow name digest size role =
      column 34 name (column 18 digest (column 14 size role)) := by
  simp [targetRow, column, String.append_assoc]

/-- The row of a target as a trial reads it. -/
def targetRowOf (e : String × Target) : TargetRow :=
  ⟨e.1, targetsRole, targetRow e.1 e.2.digest (toString e.2.size) "targets"⟩

/-- The target table as it is printed. -/
def targetTable (targets : Dict Target) : String :=
  lines targetHeader ++ lines (targetRows targets)

/-- Targets whose rows are single lines that begin with the name. -/
def Listable (targets : Dict Target) : Prop :=
  ∀ e ∈ targets.toList, Wordy e.1 ∧ '\n' ∉ e.2.digest.toList

theorem trimmed_targetRow {name digest size role : String} (hname : Wordy name)
    (hdigest : '\n' ∉ digest.toList) (hsize : '\n' ∉ size.toList) (hrole : Wordy role) :
    Trimmed (targetRow name digest size role) := by
  have hcolumn : '\n' ∉ (column 14 size role).toList := mem_column hsize hrole.single (by decide)
  rw [targetRow_eq]
  refine trimmed_column hname (mem_column hdigest hcolumn (by decide)) ?_
  rw [getLast?_column (by simp [toList_column]), getLast?_column hrole.nonempty]
  obtain ⟨c, hc⟩ := Option.ne_none_iff_exists'.1 fun h => hrole.nonempty (List.getLast?_eq_none_iff.1 h)
  exact ⟨c, hc, hrole.solid c (List.mem_of_getLast? hc)⟩

theorem trimmed_targetHeader : ∀ row ∈ targetHeader, Trimmed row := by
  have hheads : Trimmed (targetRow "NAME" "DIGEST" "SIZE (BYTES)" "ROLE") :=
    trimmed_targetRow (by decide) (by decide) (by decide) (by decide)
  have hrules : Trimmed (targetRow "----" "------" "------------" "----") :=
    trimmed_targetRow (by decide) (by decide) (by decide) (by decide)
  simp [targetHeader, hheads, hrules]

theorem firstWord_targetRow {name : String} (hname : Wordy name) (digest size role : String) :
    firstWord (targetRow name digest size role) = name := by
  rw [targetRow_eq, firstWord_column hname]

theorem lastWord_targetRow {role : String} (hrole : Wordy role) (name digest size : String) :
    lastWord (targetRow name digest size role) = role := by
  simp [lastWord, targetRow_eq, wordChars_column, wordChars_wordy hrole]

theorem read_targetTable {targets : Dict Target} (h : Listable targets) :
    TargetListing.read (targetTable targets) =
      TargetListing.read (lines targetHeader) ++ targets.toList.map targetRowOf := by
  have htargets : Wordy "targets" := by decide
  have hwords : ∀ e ∈ targets.toList, firstWord (targetRowOf e).line = e.1 :=
    fun e he => firstWord_targetRow (h e he).1 _ _ _
  have hrows : ∀ row ∈ targetRows targets, Trimmed row ∧ Wordy (firstWord row) := by
    intro row hrow
    obtain ⟨e, he, rfl⟩ := List.mem_map.1 hrow
    exact ⟨trimmed_targetRow (h e he).1 (h e he).2 (wordy_toString _).single htargets,
      (hwords e he).symm ▸ (h e he).1⟩
  rw [TargetListing.read, targetTable, rows_table trimmed_targetHeader hrows, List.map_append,
    targetRows, List.map_map]
  congr 1
  refine List.map_congr_left fun e he => ?_
  simp [targetRowOf, firstWord_targetRow (h e he).1, lastWord_targetRow htargets, targetsRole]

/-- The rows of the header do not look like those of a target. -/
theorem read_targetHeader :
    (TargetListing.read (lines targetHeader)).map (fun row => (row.name, row.role)) =
      [("NAME", "ROLE"), ("----", "----")] := by
  have hrole : Wordy "ROLE" := by decide
  have hrule : Wordy "----" := by decide
  have hheads : firstWord (targetRow "NAME" "DIGEST" "SIZE (BYTES)" "ROLE") = "NAME" :=
    firstWord_targetRow (by decide) _ _ _
  have hrules : firstWord (targetRow "----" "------" "------------" "----") = "----" :=
    firstWord_targetRow hrule _ _ _
  have hheads_ne := ne_empty_of_firstWord (hheads.symm ▸ (by decide : Wordy "NAME"))
  have hrules_ne := ne_empty_of_firstWord (hrules.symm ▸ hrule)
  rw [TargetListing.read, rows_lines trimmed_targetHeader]
  simp [targetHeader, hheads_ne, hrules_ne, hheads, hrules, lastWord_targetRow hrole,
    lastWord_targetRow hrule]

/-- A target is in the table exactly if it is published. -/
theorem hasName_targetTable {targets : Dict Target} (h : Listable targets) {name : String}
    (hname : name ∉ ["NAME", "----"]) :
    TargetListing.hasName name (TargetListing.read (targetTable targets)) =
      targets.contains name := by
  have hheader : (TargetListing.read (lines targetHeader)).any (fun row => row.name = name) =
      false := by
    rw [List.any_eq_false]
    intro row hrow hsame
    have hmem := List.mem_map_of_mem (f := fun row => (row.name, row.role)) hrow
    rw [read_targetHeader, of_decide_eq_true hsame] at hmem
    refine hname ?_
    simp only [List.mem_cons, Prod.mk.injEq, List.not_mem_nil, or_false] at hmem ⊢
    exact hmem.imp And.left And.left
  rw [read_targetTable h, TargetListing.hasName, List.any_append, hheader, Bool.false_or,
    List.any_map, Dict.contains_eq_any]
  rfl

/-- A published target has one row of its role. -/
theorem count_targetTable {targets : Dict Target} (h : Listable targets) (name : String) :
    TargetListing.count name targetsRole (TargetListing.read (targetTable targets)) =
      if targets.contains name then 1 else 0 := by
  have hheader : (TargetListing.read (lines targetHeader)).countP
      (fun row => row.name = name ∧ row.role = targetsRole) = 0 := by
    rw [List.countP_eq_zero]
    intro row hrow hsame
    have hmem := List.mem_map_of_mem (f := fun row => (row.name, row.role)) hrow
    rw [read_targetHeader, (of_decide_eq_true hsame).2] at hmem
    simp [targetsRole] at hmem
  rw [read_targetTable h, TargetListing.count, List.countP_append, hheader, Nat.zero_add,
    List.countP_map, ← Dict.countP_toList]
  refine List.countP_congr fun e _ => ?_
  simp [targetRowOf]

end Notary
end TrustTrial
