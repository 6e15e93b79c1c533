import TrustTrial.Text.Lowercase
import TrustTrial.Proofs.Texts

/-!
# TrustTrial.Proofs.Letters

Lower case. In the table no image is a letter with another image, and blanks have no part in it;
both are checked on the progressions of code points that its rows stand for, pair by pair. So a text
in lower case stays as it is, whatever the context of its letters (`lowercase_lowercase`), and has
blanks at its ends only if the text had them before (`Unpadded.lowercaseFrom`).

Texts that differ by blanks at their ends and by the case of ASCII letters are `Alike`. They have
one trimmed lower case (`Alike.lowercase_trim`), as a letter and its other case are told apart by
nothing that lower case looks at, in itself or in its neighbours (`Twin`).
-/

namespace TrustTrial
namespace Text

/-! ## The table of lower cases -/

/-- Code points at equal distances. -/
structure Progression where
  first : Nat
  last : Nat
  step : Nat

namespace Progression

variable {p q : Progression} {n : Nat}

instance : Membership Nat Progression :=
  ⟨fun p n => p.first ≤ n ∧ n ≤ p.last ∧ (n - p.first) % p.step = 0⟩

instance (n : Nat) (p : Progression) : Decidable (n ∈ p) :=
  inferInstanceAs (Decidable (p.first ≤ n ∧ n ≤ p.last ∧ (n - p.first) % p.step = 0))

theorem mem_iff : n ∈ p ↔ p.first ≤ n ∧ n ≤ p.last ∧ (n - p.first) % p.step = 0 := Iff.rfl

/-- Every second code point, or a single one. -/
def alternates (p : Progression) : Bool := p.step.beq 2 || p.first.beq p.last

/-- One ends before the other begins, or they take turns. -/
def apart (p q : Progression) : Bool :=
  p.last.blt q.first || q.last.blt p.first ||
    (p.alternates && q.alternates && !(p.first % 2).beq (q.first % 2))

theorem mod_of_alternates (h : p.alternates = true) (hn : n ∈ p) : n % 2 = p.first % 2 := by
  obtain ⟨hfirst, hlast, hstep⟩ := hn
  simp only [alternates, Bool.or_eq_true, Nat.beq_eq] at h
  rcases h with h | h
  · rw [h] at hstep
    omega
  · rw [Nat.le_antisymm hfirst (h ▸ hlast)]

theorem notMem_of_apart (h : p.apart q = true) (hp : n ∈ p) : n ∉ q := by
  intro hq
  simp only [apart, Bool.or_eq_true, Bool.and_eq_true, Nat.blt_eq, Bool.not_eq_true',
    ← Bool.not_eq_true, Nat.beq_eq] at h
  rcases h with (h | h) | ⟨⟨hpair, hpair'⟩, hparity⟩
  · have := hp.2.1
    have := hq.1
    omega
  · have := hp.1
    have := hq.2.1
    omega
  · have hmod := mod_of_alternates hpair hp
    have hmod' := mod_of_alternates hpair' hq
    omega

end Progression

/-- The letters of a row of the table. -/
def lettersOf (row : Nat × Nat × Nat × Nat) : Progression := ⟨row.1, row.2.1, row.2.2.1⟩

/-- Their lower cases. -/
def imagesOf (row : Nat × Nat × Nat × Nat) : Progression :=
  ⟨row.2.2.2, row.2.2.2 + (row.2.1 - row.1), row.2.2.1⟩

def blanks : List Progression := blankSpans.map fun span => ⟨span.1, span.2, 1⟩

theorem lowerCode_cases (rows : List (Nat × Nat × Nat × Nat)) (n : Nat) :
    lowerCode rows n = n ∨ ∃ row ∈ rows, n ∈ lettersOf row ∧ lowerCode rows n ∈ imagesOf row := by
  induction rows with
  | nil => exact .inl rfl
  | cons row rows ih =>
    obtain ⟨first, last, step, image⟩ := row
    rw [lowerCode]
    split
    · exact .inl rfl
    · rename_i hfirst
      split
      · rename_i hrow
        refine .inr ⟨_, List.mem_cons_self, ?_⟩
        simp only [lettersOf, imagesOf, Progression.mem_iff]
        refine ⟨⟨Nat.not_lt.1 hfirst, hrow⟩, Nat.le_add_right _ _, by omega, ?_⟩
        rw [Nat.add_sub_cancel_left]
        exact hrow.2
      · rcases ih with hsame | ⟨row, hrow, hmaps⟩
        · exact .inl hsame
        · exact .inr ⟨row, List.mem_cons_of_mem _ hrow, hmaps⟩

theorem exists_blank {spans : List (Nat × Nat)} {n : Nat} (h : spanned spans n = true) :
    ∃ p ∈ spans.map (fun span => (⟨span.1, span.2, 1⟩ : Progression)), n ∈ p := by
  induction spans with
  | nil => cases h
  | cons span spans ih =>
    obtain ⟨first, last⟩ := span
    rw [spanned] at h
    rw [List.map_cons]
    split at h
    · cases h
    · rename_i hfirst
      split at h
      · rename_i hlast
        exact ⟨_, List.mem_cons_self, Nat.not_lt.1 hfirst, hlast, Nat.mod_one _⟩
      · obtain ⟨p, hp, hn⟩ := ih h
        exact ⟨p, List.mem_cons_of_mem _ hp, hn⟩

/-- The dotted capital I, whose lower case is not in the table. -/
def dottedI : Progression := ⟨0x130, 0x130, 1⟩

def surrogates : Progression := ⟨0xd800, 0xdfff, 1⟩

theorem images_apart : (lowerRows.all fun row =>
    (dottedI :: surrogates :: blanks ++ lowerRows.map lettersOf).all (imagesOf row).apart) =
      true := by
  decide +kernel

theorem letters_apart :
    (lowerRows.all fun row => blanks.all (lettersOf row).apart) = true := by
  decide +kernel

theorem images_lt : ∀ row ∈ lowerRows, (imagesOf row).last < 0x110000 := by decide +kernel

/-- The code point of a character without a further lower case, neither blank nor the dotted
capital I. -/
structure Settled (n : Nat) : Prop where
  undotted : n ∉ dottedI
  valid : n.isValidChar
  solid : ∀ p ∈ blanks, n ∉ p
  lower : ∀ row ∈ lowerRows, n ∉ lettersOf row

theorem settled_image {row : Nat × Nat × Nat × Nat} (hrow : row ∈ lowerRows) {n : Nat}
    (hn : n ∈ imagesOf row) : Settled n := by
  have hapart : ∀ p ∈ dottedI :: surrogates :: blanks ++ lowerRows.map lettersOf, n ∉ p :=
    fun p hp => Progression.notMem_of_apart
      (List.all_eq_true.1 (List.all_eq_true.1 images_apart row hrow) p hp) hn
  simp only [List.cons_append, List.forall_mem_cons, List.forall_mem_append,
    List.forall_mem_map] at hapart
  obtain ⟨hdotted, hsurrogates, hblanks, hletters⟩ := hapart
  refine ⟨hdotted, ?_, hblanks, hletters⟩
  have hlast := images_lt row hrow
  have hle := hn.2.1
  simp only [surrogates, Progression.mem_iff, Nat.mod_one, and_true, not_and] at hsurrogates
  rw [Nat.isValidChar]
  omega

theorem Settled.lowerCode {n : Nat} (h : Settled n) : lowerCode lowerRows n = n := by
  rcases lowerCode_cases lowerRows n with hsame | ⟨row, hrow, hn, -⟩
  · exact hsame
  · exact absurd hn (h.lower row hrow)

theorem Settled.isBlank {c : Char} (h : Settled c.toNat) : isBlank c = false := by
  rw [← Bool.not_eq_true]
  intro hblank
  obtain ⟨p, hp, hn⟩ := exists_blank hblank
  exact h.solid p hp hn

theorem isBlank_of_letter {row : Nat × Nat × Nat × Nat} (hrow : row ∈ lowerRows) {c : Char}
    (hc : c.toNat ∈ lettersOf row) : isBlank c = false := by
  rw [← Bool.not_eq_true]
  intro hblank
  obtain ⟨p, hp, hn⟩ := exists_blank hblank
  exact Progression.notMem_of_apart
    (List.all_eq_true.1 (List.all_eq_true.1 letters_apart row hrow) p hp) hc hn

theorem toNat_ofNat {n : Nat} (h : n.isValidChar) : (Char.ofNat n).toNat = n := by
  rw [Char.ofNat, dif_pos h]
  rfl

/-- A letter has a lower case that is settled, and neither is blank; other characters stay. -/
theorem lowerChar_cases (c : Char) :
    lowerChar c = c ∨ isBlank c = false ∧ Settled (lowerChar c).toNat := by
  rcases lowerCode_cases lowerRows c.toNat with hsame | ⟨row, hrow, hc, himage⟩
  · left
    rw [lowerChar, hsame, Char.ofNat_toNat]
  · refine .inr ⟨isBlank_of_letter hrow hc, ?_⟩
    rw [lowerChar]
    have hsettled := settled_image hrow himage
    rwa [toNat_ofNat hsettled.valid]

theorem lowerChar_lowerChar (c : Char) : lowerChar (lowerChar c) = lowerChar c := by
  rcases lowerChar_cases c with hsame | ⟨-, hsettled⟩
  · rw [hsame, hsame]
  · rw [lowerChar, hsettled.lowerCode, Char.ofNat_toNat]

theorem isBlank_lowerChar (c : Char) : isBlank (lowerChar c) = isBlank c := by
  rcases lowerChar_cases c with hsame | ⟨hc, hsettled⟩
  · rw [hsame]
  · rw [hc, hsettled.isBlank]

theorem lowerChar_ne_dotted {c : Char} (hc : c ≠ 'İ') : lowerChar c ≠ 'İ' := by
  rcases lowerChar_cases c with hsame | ⟨-, hsettled⟩
  · rwa [hsame]
  · intro h
    rw [h] at hsettled
    exact hsettled.undotted (by decide)

/-! ## Lower case in context -/

/-- A character that lower case leaves as it is. -/
structure Small (c : Char) : Prop where
  lower : lowerChar c = c
  undotted : c ≠ 'İ'

theorem Small.ne_sigma {c : Char} (h : Small c) : c ≠ 'Σ' := by
  rintro rfl
  exact absurd h.lower (by decide)

theorem mem_lowerInContext {before after : List Char} {c d : Char}
    (h : d ∈ lowerInContext before c after) : Small d ∧ isBlank d = isBlank c := by
  rw [lowerInContext] at h
  split at h
  · rename_i hc
    subst hc
    split at h <;> cases List.mem_singleton.1 h <;> exact ⟨⟨by decide, by decide⟩, by decide⟩
  · split at h
    · rename_i hc
      subst hc
      rw [List.mem_cons, List.mem_singleton] at h
      rcases h with rfl | rfl <;> exact ⟨⟨by decide, by decide⟩, by decide⟩
    · rename_i hc
      cases List.mem_singleton.1 h
      exact ⟨⟨lowerChar_lowerChar c, lowerChar_ne_dotted hc⟩, isBlank_lowerChar c⟩

theorem lowerInContext_ne_nil (before : List Char) (c : Char) (after : List Char) :
    lowerInContext before c after ≠ [] := by
  rw [lowerInContext]
  split
  · split <;> simp
  · split <;> simp

theorem Small.lowerInContext {c : Char} (h : Small c) (before after : List Char) :
    lowerInContext before c after = [c] := by
  rw [Text.lowerInContext, if_neg h.ne_sigma, if_neg h.undotted, h.lower]

theorem small_of_mem_lowercaseFrom {before s : List Char} {d : Char}
    (h : d ∈ lowercaseFrom before s) : Small d := by
  induction s generalizing before with
  | nil => cases h
  | cons c after ih =>
    rcases List.mem_append.1 h with h | h
    · exact (mem_lowerInContext h).1
    · exact ih h

theorem lowercaseFrom_of_small {s : List Char} (h : ∀ c ∈ s, Small c) (before : List Char) :
    lowercaseFrom before s = s := by
  induction s generalizing before with
  | nil => rfl
  | cons c after ih =>
    obtain ⟨hc, hafter⟩ := List.forall_mem_cons.1 h
    rw [lowercaseFrom, hc.lowerInContext, ih hafter]
    rfl

/-- Lower case is final. -/
theorem lowercase_lowercase (s : String) : lowercase (lowercase s) = lowercase s := by
  rw [lowercase, lowercase, String.toList_ofList,
    lowercaseFrom_of_small fun _ => small_of_mem_lowercaseFrom]

theorem lowercaseFrom_ne_nil (before : List Char) (c : Char) (after : List Char) :
    lowercaseFrom before (c :: after) ≠ [] := by
  rw [lowercaseFrom]
  simp [lowerInContext_ne_nil]

theorem head?_lowercaseFrom {before s : List Char} {d : Char}
    (h : d ∈ (lowercaseFrom before s).head?) : ∃ c ∈ s.head?, isBlank d = isBlank c := by
  cases s with
  | nil => cases h
  | cons c after =>
    refine ⟨c, rfl, ?_⟩
    have hne := lowerInContext_ne_nil before c after
    rw [lowercaseFrom, List.head?_append, List.head?_eq_some_head hne, Option.some_or,
      ← List.head?_eq_some_head hne] at h
    exact (mem_lowerInContext (List.mem_of_head? h)).2

theorem getLast?_lowercaseFrom {before s : List Char} {d : Char}
    (h : d ∈ (lowercaseFrom before s).getLast?) : ∃ c ∈ s.getLast?, isBlank d = isBlank c := by
  induction s generalizing before with
  | nil => cases h
  | cons c after ih =>
    cases after with
    | nil =>
      rw [lowercaseFrom, lowercaseFrom, List.append_nil] at h
      exact ⟨c, rfl, (mem_lowerInContext (List.mem_of_getLast? h)).2⟩
    | cons e rest =>
      have hne := lowercaseFrom_ne_nil (c :: before) e rest
      rw [lowercaseFrom, List.getLast?_append, List.getLast?_eq_some_getLast hne, Option.some_or,
        ← List.getLast?_eq_some_getLast hne] at h
      exact ih h

/-- Lower case has blanks at its ends only if the text has. -/
theorem Unpadded.lowercaseFrom {s : List Char} (h : Unpadded s) (before : List Char) :
    Unpadded (lowercaseFrom before s) := by
  constructor
  · intro d hd
    obtain ⟨c, hc, hblank⟩ := head?_lowercaseFrom hd
    rw [hblank, h.first c hc]
  · intro d hd
    obtain ⟨c, hc, hblank⟩ := getLast?_lowercaseFrom hd
    rw [hblank, h.last c hc]

/-! ## The case of ASCII letters -/

/-- Characters between which nothing that is asked about a character makes a difference. -/
structure Twin (c d : Char) : Prop where
  lower : lowerChar c = lowerChar d
  cased : isCased c = isCased d
  ignorable : isCaseIgnorable c = isCaseIgnorable d
  blank : isBlank c = isBlank d
  sigma : c = 'Σ' ↔ d = 'Σ'
  dotted : c = 'İ' ↔ d = 'İ'

/-- Only the capital ASCII letters are changed. -/
theorem toLower_cases (c : Char) : c.toLower = c ∨ ∃ n < 26, c = Char.ofNat (65 + n) := by
  by_cases h : c.val ≥ 'A'.val ∧ c.val ≤ 'Z'.val
  · simp only [ge_iff_le, UInt32.le_iff_toNat_le] at h
    have hfirst : 65 ≤ c.toNat := h.1
    have hlast : c.toNat ≤ 90 := h.2
    refine .inr ⟨c.toNat - 65, by omega, ?_⟩
    rw [Nat.add_sub_of_le hfirst, Char.ofNat_toNat]
  · exact .inl (dif_neg h)

instance (c d : Char) : Decidable (Twin c d) :=
  decidable_of_iff (lowerChar c = lowerChar d ∧ isCased c = isCased d ∧
      isCaseIgnorable c = isCaseIgnorable d ∧ isBlank c = isBlank d ∧ (c = 'Σ' ↔ d = 'Σ') ∧
      (c = 'İ' ↔ d = 'İ'))
    ⟨fun ⟨hlower, hcased, hignorable, hblank, hsigma, hdotted⟩ =>
        ⟨hlower, hcased, hignorable, hblank, hsigma, hdotted⟩,
      fun h => ⟨h.lower, h.cased, h.ignorable, h.blank, h.sigma, h.dotted⟩⟩

theorem twin_toLower (c : Char) : Twin c.toLower c := by
  rcases toLower_cases c with hsame | ⟨n, hn, rfl⟩
  · rw [hsame]
    exact ⟨rfl, rfl, rfl, rfl, Iff.rfl, Iff.rfl⟩
  · have hcapitals : ∀ n < 26, Twin (Char.ofNat (65 + n)).toLower (Char.ofNat (65 + n)) := by decide
    exact hcapitals n hn

theorem meetsCased_toLower (s : List Char) : meetsCased (s.map Char.toLower) = meetsCased s := by
  have hignorable : isCaseIgnorable ∘ Char.toLower = isCaseIgnorable :=
    funext fun c => (twin_toLower c).ignorable
  rw [meetsCased, meetsCased, List.dropWhile_map, hignorable]
  cases s.dropWhile isCaseIgnorable with
  | nil => rfl
  | cons c rest => exact (twin_toLower c).cased

theorem lowerInContext_toLower (before : List Char) (c : Char) (after : List Char) :
    lowerInContext (before.map Char.toLower) c.toLower (after.map Char.toLower) =
      lowerInContext before c after := by
  have htwin := twin_toLower c
  simp only [lowerInContext, meetsCased_toLower, htwin.sigma, htwin.dotted, htwin.lower]

theorem lowercaseFrom_toLower (before s : List Char) :
    lowercaseFrom (before.map Char.toLower) (s.map Char.toLower) = lowercaseFrom before s := by
  induction s generalizing before with
  | nil => rfl
  | cons c after ih =>
    rw [List.map_cons, lowercaseFrom, lowercaseFrom, lowerInContext_toLower, ← ih (c :: before)]
    rfl

theorem trimChars_toLower (s : List Char) :
    trimChars (s.map Char.toLower) = (trimChars s).map Char.toLower :=
  trimChars_map (fun c => (twin_toLower c).blank) s

/-! ## Alike texts -/

/-- Texts that come from each other by adding blanks at their ends, taking such blanks away, and
changing the case of ASCII letters. -/
inductive Alike : String → String → Prop where
  | padded {before after : String} (s : String) : (∀ c ∈ before.toList, isBlank c = true) →
      (∀ c ∈ after.toList, isBlank c = true) → Alike (before ++ s ++ after) s
  | recased {s t : String} :
      s.toList.map Char.toLower = t.toList.map Char.toLower → Alike s t
  | symm {s t : String} : Alike s t → Alike t s
  | trans {s t u : String} : Alike s t → Alike t u → Alike s u

theorem Alike.lowercase_trim {s t : String} (h : Alike s t) :
    lowercase (trim s) = lowercase (trim t) := by
  induction h with
  | padded s hbefore hafter =>
    rw [trim, String.toList_append, String.toList_append, trimChars_padded hbefore hafter, ← trim]
  | @recased s t hcase =>
    have htrim : ∀ u : String, lowercase (trim u) =
        .ofList (lowercaseFrom [] (trimChars (u.toList.map Char.toLower))) := by
      intro u
      rw [trimChars_toLower, ← List.map_nil, lowercaseFrom_toLower, lowercase, trim,
        String.toList_ofList]
    rw [htrim, htrim, hcase]
  | symm _ ih => exact ih.symm
  | trans _ _ ih ih' => exact ih.trans ih'

end Text
end TrustTrial
