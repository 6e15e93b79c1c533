import TrustTrial.Listing
import TrustTrial.Proofs.Places
import TrustTrial.Proofs.Texts

/-!
# TrustTrial.Proofs.Rows

Rows as the listings have them. Every line with something on it is a row, and there are no other
rows, wherever a text came from and however it was put together (`listings_lossless`). A row is one
line without blanks at its ends, so it begins with a word and ends with a word, and it is read back
as itself.
-/

namespace TrustTrial

namespace Text

/-! ## Lines and rows -/

/-- The lines of a text are its parts between line feeds, but for an empty part at its end. -/
theorem partChars_newline (s : List Char) : ∃ rest, partChars '\n' s = lineChars s ++ rest ∧
    (rest = [] ∨ rest = [[]]) := by
  induction s with
  | nil => exact ⟨[[]], rfl, .inr rfl⟩
  | cons c s ih =>
    obtain ⟨rest, hparts, hrest⟩ := ih
    by_cases hc : c = '\n'
    · refine ⟨rest, ?_, hrest⟩
      rw [partChars, lineChars, if_pos hc, if_pos hc, hparts]
      rfl
    · rw [partChars, lineChars, if_neg hc, if_neg hc, hparts]
      cases hlines : lineChars s with
      | nil =>
        -- There is a part, and it becomes the only line.
        refine ⟨[], ?_, .inl rfl⟩
        rw [hlines] at hparts
        rcases hrest with rfl | rfl
        · exact absurd hparts (partChars_ne_nil '\n' s)
        · rfl
      | cons l ls => exact ⟨rest, rfl, hrest⟩

/-- A line with something on it. -/
def isFilled (line : List Char) : Bool := line.any (fun c => !isBlank c)

theorem isEmpty_trimChars (line : List Char) : (!(trimChars line).isEmpty) = isFilled line := by
  rw [Bool.eq_iff_iff, isFilled, Bool.not_eq_true', ← Bool.not_eq_true, List.isEmpty_iff,
    trimChars_eq_nil]
  simp

/-- Every line with something on it gives a row, and there are no other rows. -/
theorem rowChars_eq (s : List Char) :
    rowChars s = ((partChars '\n' s).filter isFilled).map trimChars := by
  obtain ⟨rest, hparts, hrest⟩ := partChars_newline s
  have hfilled : (fun row => !row.isEmpty) ∘ trimChars = isFilled := funext isEmpty_trimChars
  have hnone : rest.filter isFilled = [] := by rcases hrest with rfl | rfl <;> rfl
  rw [rowChars, List.filter_map, hfilled, hparts, List.filter_append, hnone, List.append_nil]

theorem rows_eq (s : String) :
    rows s = ((parted '\n' s).filter (fun line => isFilled line.toList)).map trim := by
  rw [rows, rowChars_eq, parted, List.filter_map, List.map_map, List.map_map]
  have htrim : String.ofList ∘ trimChars = trim ∘ String.ofList := by
    funext line
    simp [trim]
  have hfilled : (fun line : String => isFilled line.toList) ∘ String.ofList = isFilled := by
    funext line
    simp
  rw [htrim, hfilled]

theorem rows_append (a b : String) : rows (a ++ "\n" ++ b) = rows a ++ rows b := by
  have hnewline : "\n" = String.singleton '\n' := rfl
  rw [rows_eq, rows_eq, rows_eq, hnewline, parted_append, List.filter_append, List.map_append]

/-- A carriage return at the end of a line is not part of the row. -/
theorem rows_carriageReturn (a : String) : rows (a ++ "\r") = rows a := by
  obtain ⟨front, last, ha, hconcat⟩ :=
    partChars_concat (by decide : '\r' ≠ '\n') a.toList
  have hblank : ∀ c ∈ ['\r'], isBlank c = true := by
    rw [List.forall_mem_singleton]
    decide
  have htrim : trimChars (last ++ ['\r']) = trimChars last := by
    have hpadded : trimChars ([] ++ last ++ ['\r']) = trimChars last :=
      trimChars_padded (List.forall_mem_nil _) hblank last
    rwa [List.nil_append] at hpadded
  have hfilled : isFilled (last ++ ['\r']) = isFilled last := by
    rw [← isEmpty_trimChars, htrim, isEmpty_trimChars]
  have hlast : ([last ++ ['\r']].filter isFilled).map trimChars =
      ([last].filter isFilled).map trimChars := by
    rw [List.filter_cons, List.filter_cons, hfilled]
    split
    · rw [List.filter_nil, List.map_singleton, List.map_singleton, htrim]
    · rfl
  have hreturn : (a ++ "\r").toList = a.toList ++ ['\r'] := String.toList_append
  rw [rows, rows, hreturn, rowChars_eq, rowChars_eq, ha, hconcat]
  simp only [List.filter_append, List.map_append, hlast]

/-- A row: one line that is not empty and has no blanks at its ends. -/
structure IsRow (line : String) : Prop where
  nonempty : line ≠ ""
  single : '\n' ∉ line.toList
  unpadded : Unpadded line.toList

theorem isRow_of_mem {s line : String} (h : line ∈ rows s) : IsRow line := by
  obtain ⟨row, hrow, rfl⟩ := List.mem_map.1 h
  rw [rowChars_eq] at hrow
  obtain ⟨part, hpart, rfl⟩ := List.mem_map.1 hrow
  obtain ⟨hpart, hfilled⟩ := List.mem_filter.1 hpart
  refine ⟨?_, ?_, ?_⟩
  · intro hempty
    rw [← isEmpty_trimChars, String.ofList_eq_empty_iff.1 hempty] at hfilled
    cases hfilled
  · rw [String.toList_ofList]
    exact fun hmem => notMem_of_mem_partChars hpart (mem_of_mem_trimChars hmem)
  · rw [String.toList_ofList]
    exact unpadded_trimChars part

theorem IsRow.rows {line : String} (h : IsRow line) : rows line = [line] := by
  have hfilled : isFilled line.toList = true := by
    rw [← isEmpty_trimChars, h.unpadded.trimChars]
    simpa using h.nonempty
  have hkept : [line].filter (fun line => isFilled line.toList) = [line] := by
    rw [List.filter_cons, if_pos hfilled, List.filter_nil]
  rw [rows_eq, parted_of_not_mem h.single, hkept, List.map_singleton, trim, h.unpadded.trimChars,
    String.ofList_toList]

/-- Rows that are put together line by line are read back. -/
theorem rows_joined {lines : List String} (h : ∀ line ∈ lines, IsRow line) :
    Text.rows ("\n".intercalate lines) = lines := by
  induction lines with
  | nil => rfl
  | cons line lines ih =>
    obtain ⟨hline, hlines⟩ := List.forall_mem_cons.1 h
    cases lines with
    | nil => rw [String.intercalate_singleton, hline.rows]
    | cons next rest =>
      rw [String.intercalate_cons_cons, rows_append, hline.rows, ih hlines]
      rfl

/-! ## The words of a row -/

/-- A line begins with a word. -/
structure Opens (word line : String) : Prop where
  wordy : Wordy word
  before : ∃ rest, line.toList = word.toList ++ rest ∧ ∀ c ∈ rest.head?, isBlank c = true

/-- A line ends with a word. -/
structure Closes (word line : String) : Prop where
  wordy : Wordy word
  after : ∃ front, line.toList = front ++ word.toList ∧ ∀ c ∈ front.getLast?, isBlank c = true

theorem Opens.firstWord {word line : String} (h : Opens word line) : firstWord line = word := by
  obtain ⟨rest, hline, hrest⟩ := h.before
  have hword := wordChars_wordy h.wordy
  rw [Text.firstWord, hline]
  cases rest with
  | nil =>
    rw [List.append_nil, hword]
    exact String.ofList_toList
  | cons b rest =>
    rw [wordChars_append_blank _ (hrest b rfl), hword]
    exact String.ofList_toList

theorem Closes.lastWord {word line : String} (h : Closes word line) : lastWord line = word := by
  obtain ⟨front, hline, hfront⟩ := h.after
  have hword := wordChars_wordy h.wordy
  rw [Text.lastWord, hline]
  rcases List.eq_nil_or_concat front with rfl | ⟨front, b, rfl⟩
  · rw [List.nil_append, hword]
    exact String.ofList_toList
  · have hb : isBlank b = true := hfront b (by simp)
    rw [List.concat_eq_append, List.append_assoc, List.singleton_append,
      wordChars_append_blank _ hb, hword, List.getLast?_concat]
    exact String.ofList_toList

/-- A text that begins with no blank begins with a word. -/
theorem exists_front_word {s : List Char} (hne : s ≠ [])
    (hfirst : ∀ c ∈ s.head?, isBlank c = false) : ∃ word rest, s = word ++ rest ∧ word ≠ [] ∧
      (∀ c ∈ word, isBlank c = false) ∧ ∀ c ∈ rest.head?, isBlank c = true := by
  refine ⟨_, _, (List.takeWhile_append_dropWhile (p := fun c => !isBlank c)).symm, ?_, ?_, ?_⟩
  · obtain ⟨c, s, rfl⟩ := List.exists_cons_of_ne_nil hne
    rw [List.takeWhile_cons_of_pos (by rw [hfirst c rfl]; rfl)]
    exact List.cons_ne_nil _ _
  · intro c hc
    simpa using of_mem_takeWhile hc
  · intro c hc
    simpa using not_of_head?_dropWhile hc

theorem IsRow.opens {line : String} (h : IsRow line) : Opens (firstWord line) line := by
  obtain ⟨word, rest, hline, hne, hword, hrest⟩ :=
    exists_front_word (mt String.toList_eq_nil_iff.1 h.nonempty) h.unpadded.first
  have hopens : Opens (.ofList word) line := by
    refine ⟨⟨?_, ?_⟩, rest, ?_, hrest⟩ <;> rwa [String.toList_ofList]
  rwa [hopens.firstWord]

/-- The last word is the first one of the reversed row. -/
theorem IsRow.closes {line : String} (h : IsRow line) : Closes (lastWord line) line := by
  have hne : line.toList.reverse ≠ [] :=
    mt List.reverse_eq_nil_iff.1 (mt String.toList_eq_nil_iff.1 h.nonempty)
  have hlast : ∀ c ∈ line.toList.reverse.head?, isBlank c = false := by
    rw [List.head?_reverse]
    exact h.unpadded.last
  obtain ⟨word, rest, hline, hne, hword, hrest⟩ := exists_front_word hne hlast
  rw [List.reverse_eq_iff, List.reverse_append] at hline
  have hcloses : Closes (.ofList word.reverse) line := by
    refine ⟨⟨?_, ?_⟩, rest.reverse, ?_, ?_⟩
    · rw [String.toList_ofList]
      exact mt List.reverse_eq_nil_iff.1 hne
    · rw [String.toList_ofList]
      exact fun c hc => hword c (List.mem_reverse.1 hc)
    · rwa [String.toList_ofList]
    · rwa [List.getLast?_reverse]
  rwa [hcloses.lastWord]

end Text

/-! ## Listings -/

open Text

/-- A way of reading that loses no row of a text and invents none. -/
structure Lossless {ρ : Type} (read : String → List ρ) (line : ρ → String) : Prop where
  append : ∀ a b, read (a ++ "\n" ++ b) = read a ++ read b
  /-- A carriage return before the line feed changes nothing. -/
  returned : ∀ a b, read (a ++ "\r\n" ++ b) = read a ++ read b
  /-- The entries are the lines with something on them, trimmed. -/
  told : ∀ a, (read a).map line =
    ((parted '\n' a).filter (fun part => isFilled part.toList)).map trim
  count : ∀ a, (read a).length =
    (parted '\n' a).countP (fun part => isFilled part.toList)
  row : ∀ a, ∀ entry ∈ read a, IsRow (line entry)
  /-- The lines of the entries are read as the same entries. -/
  again : ∀ a, read ("\n".intercalate ((read a).map line)) = read a

/-- A listing whose entries are made of the rows is as good as the rows. -/
theorem lossless_map {ρ : Type} {entry : String → ρ} {line : ρ → String}
    (h : ∀ row, line (entry row) = row) :
    Lossless (fun output => (rows output).map entry) line := by
  have htold : ∀ a, ((rows a).map entry).map line = rows a := by
    intro a
    have hid : line ∘ entry = id := funext h
    rw [List.map_map, hid, List.map_id]
  constructor
  case append =>
    intro a b
    rw [rows_append, List.map_append]
  case returned =>
    intro a b
    have hjoined : a ++ "\r\n" ++ b = a ++ "\r" ++ "\n" ++ b := by
      simp only [String.append_assoc]
      rfl
    rw [hjoined, rows_append, rows_carriageReturn, List.map_append]
  case told =>
    intro a
    rw [htold, rows_eq]
  case count =>
    intro a
    rw [List.length_map, rows_eq, List.length_map, List.countP_eq_length_filter]
  case row =>
    intro a e he
    obtain ⟨row, hrow, rfl⟩ := List.mem_map.1 he
    rw [h]
    exact isRow_of_mem hrow
  case again =>
    intro a
    rw [htold, rows_joined fun _ => isRow_of_mem]

/-- The listings lose no row and invent none, and the columns that they tell are the words at the
ends of the rows. -/
theorem listings_lossless :
    Lossless KeyListing.read KeyRow.line ∧ Lossless TargetListing.read TargetRow.line ∧
      (∀ output, ∀ row ∈ KeyListing.read output, Opens row.role row.line) ∧
      ∀ output, ∀ row ∈ TargetListing.read output,
        Opens row.name row.line ∧ Closes row.role row.line := by
  refine ⟨lossless_map fun _ => rfl, lossless_map fun _ => rfl, fun output row hrow => ?_,
    fun output row hrow => ?_⟩
  · obtain ⟨line, hline, rfl⟩ := List.mem_map.1 hrow
    exact (isRow_of_mem hline).opens
  · obtain ⟨line, hline, rfl⟩ := List.mem_map.1 hrow
    exact ⟨(isRow_of_mem hline).opens, (isRow_of_mem hline).closes⟩

/-- Carriage returns are blanks, at the end of a line and at the end of the text. -/
def returnedSheet : String := "NAME\r\n\r\n \u3000a/b  12 targets\r"

theorem listings_lossless_returned :
    (TargetListing.read returnedSheet).length = 2 ∧
      TargetListing.read "NAME\na/b  12 targets" = TargetListing.read returnedSheet ∧
      ⟨"a/b", "targets", "a/b  12 targets"⟩ ∈ TargetListing.read returnedSheet ∧
      Opens "a/b" "a/b  12 targets" ∧ Closes "targets" "a/b  12 targets" := by
  have hread : TargetListing.read returnedSheet =
      [⟨"NAME", "NAME", "NAME"⟩, ⟨"a/b", "targets", "a/b  12 targets"⟩] := by decide
  have hmem : ⟨"a/b", "targets", "a/b  12 targets"⟩ ∈ TargetListing.read returnedSheet := by
    simp [hread]
  obtain ⟨-, htargets, -, hwords⟩ := listings_lossless
  have hagain := htargets.again returnedSheet
  refine ⟨by rw [hread]; rfl, ?_, hmem, hwords _ _ hmem⟩
  rw [hread] at hagain ⊢
  exact hagain

end TrustTrial
