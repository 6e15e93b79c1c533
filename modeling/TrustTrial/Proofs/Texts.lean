import TrustTrial.Text.Blank
import TrustTrial.Text.Numeral

/-!
# TrustTrial.Proofs.Texts

Numbers as digits, and rows and words as they are read back from text that was put together from
them. Trimming takes away the blanks at both ends of a text and nothing else (`exists_padding`,
`unpadded_trimChars`).
-/

namespace TrustTrial
namespace Text

/-! ## Digits -/

theorem isDigit_eq (c : Char) : isDigit c = c.isDigit := by
  rfl

theorem isDigit_of_mem_toDigits {c : Char} {n : Nat} (h : c ∈ Nat.toDigits 10 n) :
    isDigit c = true := by
  rw [isDigit_eq]
  exact Nat.isDigit_of_mem_toDigits (by decide) (by decide) h

theorem digitValue_digitChar : ∀ n < 10, digitValue (Nat.digitChar n) = n := by decide

/-- The value of digits in a base. -/
def valueIn (base : Nat) (value : Char → Nat) (s : List Char) : Nat :=
  s.foldl (fun n c => base * n + value c) 0

theorem valueIn_toDigits {base : Nat} {value : Char → Nat} (hbase : 1 < base)
    (hvalue : ∀ n < base, value (Nat.digitChar n) = n) (n : Nat) :
    valueIn base value (Nat.toDigits base n) = n := by
  induction n using Nat.strongRecOn with
  | ind n ih =>
    by_cases hn : n < base
    · rw [Nat.toDigits_of_lt_base hn]
      simp [valueIn, hvalue n hn]
    · have hrest := ih (n / base) (Nat.div_lt_self (by omega) hbase)
      have hlast := hvalue (n % base) (Nat.mod_lt n (by omega))
      rw [Nat.toDigits_of_base_le hbase (Nat.not_lt.1 hn), valueIn, List.foldl_append,
        ← valueIn.eq_1, hrest, List.foldl_cons, List.foldl_nil, hlast, Nat.div_add_mod]

theorem digitsValue_toDigits (n : Nat) : digitsValue (Nat.toDigits 10 n) = n :=
  valueIn_toDigits (by decide) digitValue_digitChar n

theorem toString_injective : Function.Injective (toString : Nat → String) := by
  intro m n h
  have hdigits : Nat.toDigits 10 m = Nat.toDigits 10 n := by
    simpa using congrArg String.toList h
  rw [← digitsValue_toDigits m, hdigits, digitsValue_toDigits]

theorem mem_toDigits {base n : Nat} {c : Char} (hbase : 1 < base) (h : c ∈ Nat.toDigits base n) :
    ∃ k < base, c = Nat.digitChar k := by
  induction n using Nat.strongRecOn with
  | ind n ih =>
    by_cases hn : n < base
    · rw [Nat.toDigits_of_lt_base hn] at h
      exact ⟨n, hn, List.mem_singleton.1 h⟩
    · rw [Nat.toDigits_of_base_le hbase (Nat.not_lt.1 hn)] at h
      rcases List.mem_append.1 h with h | h
      · exact ih (n / base) (Nat.div_lt_self (by omega) hbase) h
      · exact ⟨n % base, Nat.mod_lt n (by omega), List.mem_singleton.1 h⟩

/-- Only the number zero begins with the digit zero. -/
theorem head?_toDigits {n : Nat} (hn : n ≠ 0) : (Nat.toDigits 10 n).head? ≠ some '0' := by
  induction n using Nat.strongRecOn with
  | ind n ih =>
    by_cases hsmall : n < 10
    · rw [Nat.toDigits_of_lt_base hsmall]
      have hdigit : ∀ k < 10, k ≠ 0 → Nat.digitChar k ≠ '0' := by decide
      simpa using hdigit n hsmall hn
    · have hrest := ih (n / 10) (by omega) (by omega)
      rw [Nat.toDigits_of_base_le (by decide) (Nat.not_lt.1 hsmall)]
      cases h : Nat.toDigits 10 (n / 10) with
      | nil => exact absurd h Nat.toDigits_ne_nil
      | cons c s =>
        rw [h] at hrest
        exact hrest

/-- The value of a hexadecimal digit. -/
def nibble (c : Char) : Nat := if isDigit c then digitValue c else c.toNat - 87

theorem nibble_digitChar : ∀ n < 16, nibble (Nat.digitChar n) = n := by decide

theorem valueIn_hexadecimal (width n : Nat) :
    valueIn 16 nibble (hexadecimal width n).toList = n := by
  have hzeros : ∀ k, (List.replicate k '0').foldl (fun n c => 16 * n + nibble c) 0 = 0 := by
    intro k
    induction k with
    | zero => rfl
    | succ k ih => exact ih
  rw [hexadecimal, String.toList_ofList, valueIn, List.foldl_append, hzeros]
  exact valueIn_toDigits (by decide) nibble_digitChar n

theorem hexadecimal_injective (width : Nat) : Function.Injective (hexadecimal width) := by
  intro m n h
  rw [← valueIn_hexadecimal width m, h, valueIn_hexadecimal]

/-! ## Words -/

theorem isBlank_space : isBlank ' ' = true := by decide

/-- A text that is one word. -/
structure Wordy (s : String) : Prop where
  nonempty : s.toList ≠ []
  solid : ∀ c ∈ s.toList, isBlank c = false

instance (s : String) : Decidable (Wordy s) :=
  decidable_of_iff (s.toList ≠ [] ∧ s.toList.all (fun c => !isBlank c))
    ⟨fun h => ⟨h.1, by simpa using h.2⟩, fun h => ⟨h.nonempty, by simpa using h.solid⟩⟩

theorem wordy_hexadecimal (width n : Nat) : Wordy (hexadecimal width n) := by
  have hdigits : ∀ k < 16, isBlank (Nat.digitChar k) = false := by decide
  refine ⟨?_, fun c hc => ?_⟩
  · simp [hexadecimal, Nat.toDigits_ne_nil]
  · simp only [hexadecimal, String.toList_ofList, List.mem_append, List.mem_replicate] at hc
    rcases hc with ⟨-, rfl⟩ | hc
    · decide
    · obtain ⟨k, hk, rfl⟩ := mem_toDigits (by decide) hc
      exact hdigits k hk

theorem wordy_toString (n : Nat) : Wordy (toString n) := by
  have hdigits : ∀ k < 10, isBlank (Nat.digitChar k) = false := by decide
  refine ⟨by simp [Nat.toDigits_ne_nil], fun c hc => ?_⟩
  obtain ⟨k, hk, rfl⟩ := mem_toDigits (by decide) (by simpa using hc : c ∈ Nat.toDigits 10 n)
  exact hdigits k hk

theorem Wordy.single {s : String} (h : Wordy s) : '\n' ∉ s.toList := by
  intro hmem
  exact absurd (h.solid _ hmem) (by decide)

theorem wordChars_cons_of_blank {c : Char} (hc : isBlank c = true) (s : List Char) :
    wordChars (c :: s) = wordChars s := by
  cases s <;> simp [wordChars, hc]

theorem wordChars_cons_cons {c : Char} (hc : isBlank c = false) (d : Char) (s : List Char) :
    wordChars (c :: d :: s) =
      if isBlank d then [c] :: wordChars (d :: s)
      else
        match wordChars (d :: s) with
        | [] => [[c]]
        | w :: ws => (c :: w) :: ws := by
  rw [wordChars]
  exact if_neg (by simp [hc])

theorem wordChars_ne_nil {c : Char} (hc : isBlank c = false) (s : List Char) :
    wordChars (c :: s) ≠ [] := by
  cases s with
  | nil => simp [wordChars, hc]
  | cons d s =>
    rw [wordChars_cons_cons hc]
    split
    · simp
    · split <;> simp

theorem wordChars_append_blank (a : List Char) {b : Char} (hb : isBlank b = true)
    (s : List Char) : wordChars (a ++ b :: s) = wordChars a ++ wordChars s := by
  induction a with
  | nil => exact wordChars_cons_of_blank hb s
  | cons c a ih =>
    rw [List.cons_append]
    by_cases hc : isBlank c = true
    · rw [wordChars_cons_of_blank hc, wordChars_cons_of_blank hc, ih]
    · rw [Bool.not_eq_true] at hc
      cases a with
      | nil =>
        rw [List.nil_append, wordChars_cons_cons hc, if_pos hb, wordChars_cons_of_blank hb]
        simp [wordChars, hc]
      | cons d a =>
        rw [List.cons_append] at ih ⊢
        rw [wordChars_cons_cons hc, wordChars_cons_cons hc, ih]
        split
        · rfl
        · rename_i hd
          rw [Bool.not_eq_true] at hd
          cases h : wordChars (d :: a) with
          | nil => exact absurd h (wordChars_ne_nil hd a)
          | cons w ws => rfl

theorem wordChars_word {w : List Char} (hne : w ≠ []) (hw : ∀ c ∈ w, isBlank c = false) :
    wordChars w = [w] := by
  induction w with
  | nil => exact absurd rfl hne
  | cons c w ih =>
    have hc := hw c List.mem_cons_self
    cases w with
    | nil => simp [wordChars, hc]
    | cons d w =>
      have hd := hw d (by simp)
      have hrest := ih (List.cons_ne_nil d w) fun e he => hw e (List.mem_cons_of_mem _ he)
      rw [wordChars_cons_cons hc, if_neg (by simp [hd]), hrest]

theorem wordChars_wordy {s : String} (h : Wordy s) : wordChars s.toList = [s.toList] :=
  wordChars_word h.nonempty h.solid

/-! ## Lines -/

theorem lineChars_ne_nil (c : Char) (s : List Char) : lineChars (c :: s) ≠ [] := by
  simp only [lineChars]
  split
  · simp
  · split <;> simp

theorem lineChars_append_newline (a b : List Char) :
    lineChars (a ++ '\n' :: b) = lineChars (a ++ ['\n']) ++ lineChars b := by
  induction a with
  | nil => simp [lineChars]
  | cons c a ih =>
    simp only [List.cons_append, lineChars, ih]
    split
    · rfl
    · cases h : lineChars (a ++ ['\n']) with
      | nil => cases a <;> exact absurd h (lineChars_ne_nil _ _)
      | cons l ls => rfl

theorem lineChars_line {l : List Char} (hl : '\n' ∉ l) : lineChars (l ++ ['\n']) = [l] := by
  induction l with
  | nil => rfl
  | cons c l ih =>
    rw [List.mem_cons, not_or] at hl
    rw [List.cons_append, lineChars, if_neg (fun h => hl.1 h.symm), ih hl.2]

/-! ## Trimming -/

theorem trimChars_eq {s : List Char} (hhead : ∀ c, s.head? = some c → isBlank c = false)
    (hlast : ∀ c, s.getLast? = some c → isBlank c = false) : trimChars s = s := by
  have hdrop : ∀ t : List Char, (∀ c, t.head? = some c → isBlank c = false) →
      t.dropWhile isBlank = t := by
    intro t ht
    cases t with
    | nil => rfl
    | cons c t => simp [ht c rfl]
  rw [trimChars, hdrop s hhead, hdrop s.reverse (by simpa using hlast), List.reverse_reverse]

/-- A text that begins and ends with no blank. -/
structure Unpadded (s : List Char) : Prop where
  first : ∀ c ∈ s.head?, isBlank c = false
  last : ∀ c ∈ s.getLast?, isBlank c = false

theorem Unpadded.trimChars {s : List Char} (h : Unpadded s) : trimChars s = s :=
  trimChars_eq h.first h.last

theorem of_mem_takeWhile {p : Char → Bool} {c : Char} {s : List Char} (h : c ∈ s.takeWhile p) :
    p c = true :=
  List.all_eq_true.1 List.all_takeWhile c h

theorem not_of_head?_dropWhile {p : Char → Bool} {c : Char} {s : List Char}
    (h : c ∈ (s.dropWhile p).head?) : p c = false := by
  have hfirst := List.head?_dropWhile_not p s
  rwa [Option.mem_def.1 h] at hfirst

/-- Trimming takes blanks away at both ends, and nothing else. -/
theorem exists_padding (s : List Char) : ∃ before after,
    s = before ++ trimChars s ++ after ∧ (∀ c ∈ before, isBlank c = true) ∧
      ∀ c ∈ after, isBlank c = true := by
  let rest := s.dropWhile isBlank
  refine ⟨s.takeWhile isBlank, (rest.reverse.takeWhile isBlank).reverse, ?_,
    fun c hc => of_mem_takeWhile hc,
    fun c hc => of_mem_takeWhile (List.mem_reverse.1 hc)⟩
  have hrest : trimChars s ++ (rest.reverse.takeWhile isBlank).reverse = rest := by
    rw [trimChars, ← List.reverse_append, List.takeWhile_append_dropWhile, List.reverse_reverse]
  rw [List.append_assoc, hrest, List.takeWhile_append_dropWhile]

theorem mem_of_mem_trimChars {c : Char} {s : List Char} (h : c ∈ trimChars s) : c ∈ s := by
  obtain ⟨before, after, hs, -, -⟩ := exists_padding s
  rw [hs]
  exact List.mem_append_left _ (List.mem_append_right _ h)

theorem unpadded_trimChars (s : List Char) : Unpadded (trimChars s) := by
  constructor
  · -- What is left when the end has been trimmed is a beginning of what was there before.
    intro c hc
    have hprefix : trimChars s <+: s.dropWhile isBlank := by
      rw [trimChars, ← List.reverse_suffix, List.reverse_reverse]
      exact List.dropWhile_suffix isBlank
    refine not_of_head?_dropWhile (s := s) ?_
    obtain ⟨rest, hrest⟩ := hprefix
    rw [← hrest, List.head?_append, Option.mem_def.1 hc]
    rfl
  · intro c hc
    rw [trimChars, List.getLast?_reverse] at hc
    exact not_of_head?_dropWhile hc

theorem trimChars_padded {before after : List Char} (hbefore : ∀ c ∈ before, isBlank c = true)
    (hafter : ∀ c ∈ after, isBlank c = true) (s : List Char) :
    trimChars (before ++ s ++ after) = trimChars s := by
  rw [trimChars, trimChars, List.append_assoc, List.dropWhile_append_of_pos hbefore,
    List.dropWhile_append]
  split
  · rename_i hnone
    have hblank : (after ++ []).dropWhile isBlank = [] := List.dropWhile_append_of_pos hafter
    rw [List.append_nil] at hblank
    rw [List.isEmpty_iff.1 hnone, hblank]
  · rw [List.reverse_append,
      List.dropWhile_append_of_pos fun c hc => hafter c (List.mem_reverse.1 hc)]

theorem trimChars_eq_nil {s : List Char} : trimChars s = [] ↔ ∀ c ∈ s, isBlank c = true := by
  constructor
  · intro h
    obtain ⟨before, after, hs, hbefore, hafter⟩ := exists_padding s
    rw [h, List.append_nil] at hs
    intro c hc
    rw [hs] at hc
    exact (List.mem_append.1 hc).elim (hbefore c) (hafter c)
  · intro h
    have hs : trimChars (s ++ [] ++ []) = trimChars [] := trimChars_padded h (by simp) []
    rwa [List.append_nil, List.append_nil] at hs

/-- Trimming comes before or after a change that leaves blanks as they are. -/
theorem trimChars_map {f : Char → Char} (hf : ∀ c, isBlank (f c) = isBlank c) (s : List Char) :
    trimChars (s.map f) = (trimChars s).map f := by
  have hblank : isBlank ∘ f = isBlank := funext hf
  rw [trimChars, trimChars, List.dropWhile_map, hblank, ← List.map_reverse, List.dropWhile_map,
    hblank, List.map_reverse]

end Text
end TrustTrial
