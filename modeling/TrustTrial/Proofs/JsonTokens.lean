import TrustTrial.Json.Printer
import TrustTrial.Json.Token
import TrustTrial.Proofs.Texts

/-!
# TrustTrial.Proofs.JsonTokens

A printed value is split into the tokens it was printed from. `Splits` is the splitting of a text
without its fuel; `Value.tokens` are the tokens that a value stands for, and `splits_write` says
that printing and splitting lead from the one to the other, on every level.
-/

namespace TrustTrial
namespace Json

open Text

/-! ## Splitting without fuel -/

/-- The characters split into the tokens. -/
inductive Splits : List Char → List Token → Prop where
  | nil : Splits [] []
  | space {c : Char} {s : List Char} {ts : List Token} :
      isSpace c = true → Splits s ts → Splits (c :: s) ts
  | token {c : Char} {r rest : List Char} {t : Token} {ts : List Token} :
      isSpace c = false → tokenAt c r = (t, rest) → rest.length ≤ r.length → Splits rest ts →
      Splits (c :: r) (t :: ts)

theorem Splits.tokensFrom_eq {s : List Char} {ts : List Token} (h : Splits s ts) :
    ∀ fuel, s.length ≤ fuel → tokensFrom fuel s = ts := by
  induction h with
  | nil =>
    intro fuel _
    cases fuel <;> rfl
  | space hspace _ ih =>
    intro fuel hfuel
    cases fuel with
    | zero => simp at hfuel
    | succ fuel =>
      rw [tokensFrom, if_pos hspace]
      exact ih fuel (by simpa using hfuel)
  | @token c r rest t ts hspace htoken hlength _ ih =>
    intro fuel hfuel
    cases fuel with
    | zero => simp at hfuel
    | succ fuel =>
      simp only [List.length_cons] at hfuel
      have hplain : ¬isSpace c = true := by simp [hspace]
      rw [tokensFrom, if_neg hplain, htoken]
      dsimp only
      rw [ih fuel (by omega)]

theorem Splits.tokens_eq {s : List Char} {ts : List Token} (h : Splits s ts) : tokens s = ts :=
  h.tokensFrom_eq s.length Nat.le.refl

/-! ## Texts -/

theorem hexValue?_hexDigit : ∀ n < 16, hexValue? (hexDigit n) = some n := by decide

theorem utf8Size_hexDigit : ∀ n < 16, (hexDigit n).utf8Size = 1 := by decide

theorem fillsBytes_zero (s : List Char) : fillsBytes 0 s = true := by
  induction s with
  | nil => rfl
  | cons c s ih =>
    rw [fillsBytes, Nat.zero_sub]
    exact ih

theorem hexUnit_control {n : Nat} (h : n < 0x20) (s : List Char) :
    hexUnit ('0' :: '0' :: hexDigit (n / 16) :: hexDigit (n % 16) :: s) = .ok n := by
  have hfirst : n / 16 < 16 := by omega
  have hsecond : n % 16 < 16 := by omega
  have hfills : fillsBytes 4 ('0' :: '0' :: hexDigit (n / 16) :: hexDigit (n % 16) :: s) = true := by
    simp only [fillsBytes, utf8Size_hexDigit _ hfirst, utf8Size_hexDigit _ hsecond]
    exact fillsBytes_zero s
  rw [hexUnit, if_pos hfills]
  have hzero : hexValue? '0' = some 0 := by decide
  simp only [List.take_succ_cons, List.take_zero, List.mapM_cons, List.mapM_nil, hzero,
    hexValue?_hexDigit _ hfirst, hexValue?_hexDigit _ hsecond, Option.pure_def, Option.bind_eq_bind,
    Option.bind_some]
  congr 1
  omega

/-- A character that was written is read back. -/
theorem textFrom_writeChar (c : Char) (fuel : Nat) (kept s : List Char) :
    textFrom (fuel + 1) (some kept) (writeChar c ++ s) = textFrom fuel (some (c :: kept)) s := by
  rw [writeChar]
  split
  · rename_i h
    subst h
    rfl
  split
  · rename_i h
    subst h
    rfl
  split
  · rename_i h
    subst h
    rfl
  split
  · rename_i h
    subst h
    rfl
  split
  · rename_i h
    subst h
    rfl
  split
  · rename_i h
    subst h
    rfl
  split
  · rename_i h
    subst h
    rfl
  split
  · rename_i h
    have hleading : isLeading c.toNat = false := by simp [isLeading]; omega
    have htrailing : isTrailing c.toNat = false := by simp [isTrailing]; omega
    simp only [List.cons_append, List.nil_append]
    rw [textFrom]
    simp only [hexUnit_control h, hleading, htrailing, Char.ofNat_toNat]
    rfl
  · rename_i hquote hslash _ _ _ _ _ hcontrol
    simp only [List.singleton_append, textFrom.eq_def (fuel + 1), if_neg hquote, if_neg hslash,
      if_neg hcontrol, Option.map_some]

theorem textFrom_flatMap (cs : List Char) (fuel : Nat) (kept s : List Char)
    (hfuel : cs.length < fuel) :
    textFrom fuel (some kept) (cs.flatMap writeChar ++ '"' :: s) =
      .closed (some (kept.reverse ++ cs)) s := by
  induction cs generalizing fuel kept with
  | nil =>
    obtain ⟨fuel, rfl⟩ := Nat.exists_eq_add_of_lt hfuel
    simp [textFrom]
  | cons c cs ih =>
    cases fuel with
    | zero => simp at hfuel
    | succ fuel =>
      rw [List.flatMap_cons, List.append_assoc, textFrom_writeChar,
        ih fuel (c :: kept) (by simpa using hfuel)]
      simp

theorem length_le_flatMap_writeChar (cs : List Char) :
    cs.length ≤ (cs.flatMap writeChar).length := by
  induction cs with
  | nil => exact Nat.le.refl
  | cons c cs ih =>
    have hpos : 1 ≤ (writeChar c).length := by
      unfold writeChar
      repeat' split
      all_goals simp
    rw [List.flatMap_cons, List.length_append, List.length_cons]
    omega

theorem tokenAt_text (text : String) (s : List Char) :
    tokenAt '"' (text.toList.flatMap writeChar ++ '"' :: s) =
      (.scalar true (.ok (.text text)), s) := by
  have hlength := length_le_flatMap_writeChar text.toList
  have hclosed := textFrom_flatMap text.toList
    (text.toList.flatMap writeChar ++ '"' :: s).length [] s
    (by rw [List.length_append, List.length_cons]; omega)
  simp only [tokenAt, hclosed]
  simp

theorem Splits.text {s : List Char} {ts : List Token} (name : String) (h : Splits s ts) :
    Splits (writeText name ++ s) (.scalar true (.ok (.text name)) :: ts) := by
  have hsplit : writeText name ++ s = '"' :: (name.toList.flatMap writeChar ++ '"' :: s) := by
    simp [writeText]
  rw [hsplit]
  refine .token (by decide) (tokenAt_text name s) ?_ h
  rw [List.length_append, List.length_cons]
  omega

/-! ## Numbers -/

/-- The text goes on with something that is no part of a number. -/
def EndsNumber : List Char → Prop
  | [] => True
  | c :: _ => isDigit c = false ∧ c ≠ '.' ∧ c ≠ 'e' ∧ c ≠ 'E'

theorem takeWhile_digits {ds s : List Char} (hds : ∀ c ∈ ds, isDigit c = true)
    (hs : EndsNumber s) : (ds ++ s).takeWhile isDigit = ds ∧ (ds ++ s).dropWhile isDigit = s := by
  induction ds with
  | nil =>
    cases s with
    | nil => exact ⟨rfl, rfl⟩
    | cons c s => simp [hs.1]
  | cons d ds ih =>
    obtain ⟨htake, hdrop⟩ := ih fun c hc => hds c (List.mem_cons_of_mem _ hc)
    simp [hds d List.mem_cons_self, htake, hdrop]

theorem isDigit_cases {c : Char} (h : isDigit c = true) :
    c ∈ ['0', '1', '2', '3', '4', '5', '6', '7', '8', '9'] := by
  rw [isDigit_eq, Char.isDigit, Bool.and_eq_true, decide_eq_true_eq, decide_eq_true_eq] at h
  have hval : c = Char.ofNat c.toNat := (Char.ofNat_toNat c).symm
  have hlow : 48 ≤ c.toNat := h.1
  have hhigh : c.toNat ≤ 57 := h.2
  have hall : ∀ n < 58, 48 ≤ n →
      Char.ofNat n ∈ ['0', '1', '2', '3', '4', '5', '6', '7', '8', '9'] := by decide
  rw [hval]
  exact hall c.toNat (by omega) hlow

theorem isSpace_of_isDigit {c : Char} (h : isDigit c = true) : isSpace c = false := by
  have hmem := isDigit_cases h
  simp only [List.mem_cons, List.not_mem_nil, or_false] at hmem
  rcases hmem with rfl | rfl | rfl | rfl | rfl | rfl | rfl | rfl | rfl | rfl <;> rfl

theorem tokenAt_digit {c : Char} (h : isDigit c = true) (r : List Char) :
    tokenAt c r = number (c :: r) := by
  have hmem := isDigit_cases h
  simp only [List.mem_cons, List.not_mem_nil, or_false] at hmem
  rcases hmem with rfl | rfl | rfl | rfl | rfl | rfl | rfl | rfl | rfl | rfl <;> rfl

/-- What a whole number is read as, once it is printed. -/
def printedNumber (n : Nat) : Except Fault Value :=
  NumberParts.value ⟨false, Nat.toDigits 10 n, none, none⟩ []

theorem printedNumber_of_le {n : Nat} (h : n ≤ maxWord) : printedNumber n = .ok (.natural n) := by
  simp [printedNumber, NumberParts.value, digitsValue_toDigits, h]

/-- A printed number is read as no other one. -/
theorem eq_of_printedNumber {n m : Nat} (h : printedNumber n = .ok (.natural m)) : m = n := by
  rw [printedNumber, NumberParts.value, digitsValue_toDigits] at h
  split at h
  · cases h
    rfl
  · split at h
    · cases h
    · cases h

/-- A run of digits without a leading zero, and what ends it. -/
theorem number_digits {d : Char} {ds s : List Char} (hdigits : ∀ c ∈ d :: ds, isDigit c = true)
    (hzero : ds ≠ [] → d ≠ '0') (hs : EndsNumber s) :
    number (d :: (ds ++ s)) =
      (.scalar false (NumberParts.value ⟨false, d :: ds, none, none⟩ []), s) := by
  obtain ⟨htake, hdrop⟩ := takeWhile_digits hdigits hs
  rw [List.cons_append] at htake hdrop
  have hsign : ∀ r, d :: (ds ++ s) = '-' :: r → False := by
    intro r h
    have hminus := hdigits d List.mem_cons_self
    rw [(List.cons.inj h).1] at hminus
    exact nomatch hminus
  have hleading : ∀ e es, d :: ds = '0' :: e :: es → False := by
    intro e es h
    obtain ⟨rfl, rfl⟩ := List.cons.inj h
    exact hzero (List.cons_ne_nil _ _) rfl
  unfold number
  cases s with
  | nil => simp only [htake, hdrop]
  | cons c s =>
    obtain ⟨-, hpoint, he, hE⟩ := hs
    have hexponent : ¬(c = 'e' ∨ c = 'E') := by simp [he, hE]
    have hfraction : ∀ r, c :: s = '.' :: r → False := fun r h => hpoint (List.cons.inj h).1
    simp only [htake, hdrop, if_neg hexponent]

theorem Splits.natural {s : List Char} {ts : List Token} (n : Nat) (hs : EndsNumber s)
    (h : Splits s ts) :
    Splits (Nat.toDigits 10 n ++ s) (.scalar false (printedNumber n) :: ts) := by
  have hdigits : ∀ c ∈ Nat.toDigits 10 n, isDigit c = true := fun c hc => isDigit_of_mem_toDigits hc
  rw [printedNumber]
  cases hds : Nat.toDigits 10 n with
  | nil => exact absurd hds Nat.toDigits_ne_nil
  | cons d ds =>
    rw [hds] at hdigits
    have hzero : ds ≠ [] → d ≠ '0' := by
      rintro hne rfl
      by_cases hn : n = 0
      · rw [hn, Nat.toDigits_zero] at hds
        exact hne (List.cons.inj hds).2.symm
      · exact head?_toDigits hn (by rw [hds]; rfl)
    have hdigit := hdigits d List.mem_cons_self
    have htoken : tokenAt d (ds ++ s) =
        (.scalar false (NumberParts.value ⟨false, d :: ds, none, none⟩ []), s) := by
      rw [← number_digits hdigits hzero hs]
      exact tokenAt_digit hdigit _
    rw [List.cons_append]
    refine .token (isSpace_of_isDigit hdigit) htoken ?_ h
    rw [List.length_append]
    omega

/-! ## Values -/

mutual

/-- The tokens that a value is printed as. -/
def Value.tokens : Value → List Token
  | .null => [.scalar false (.ok .null)]
  | .boolean b => [.scalar false (.ok (.boolean b))]
  | .natural n => [.scalar false (.ok (.natural n))]
  | .decimal written => [.scalar false (.ok (.decimal written))]
  | .text s => [.scalar true (.ok (.text s))]
  | .list [] => [.leftBracket, .rightBracket]
  | .list (v :: vs) => .leftBracket :: (v.tokens ++ itemTokens vs ++ [.rightBracket])
  | .object [] => [.leftBrace, .rightBrace]
  | .object (f :: fs) => .leftBrace :: (fieldTokens f ++ entryTokens fs ++ [.rightBrace])

/-- The tokens of the items after the first one. -/
def itemTokens : List Value → List Token
  | [] => []
  | v :: vs => .comma :: (v.tokens ++ itemTokens vs)

def fieldTokens : String × Value → List Token
  | (name, v) => .scalar true (.ok (.text name)) :: .colon :: v.tokens

/-- The tokens of the fields after the first one. -/
def entryTokens : List (String × Value) → List Token
  | [] => []
  | f :: fs => .comma :: (fieldTokens f ++ entryTokens fs)

end

/-- A token as it comes back from print: a number of more than 64 bits is none any more. -/
def Token.printed : Token → Token
  | .scalar false (.ok (.natural n)) => .scalar false (printedNumber n)
  | t => t

mutual

/-- Texts and numbers, and lists and objects of them. -/
def Value.Basic : Value → Prop
  | .natural _ => True
  | .text _ => True
  | .list vs => BasicItems vs
  | .object fs => BasicFields fs
  | _ => False

def BasicItems : List Value → Prop
  | [] => True
  | v :: vs => v.Basic ∧ BasicItems vs

def BasicFields : List (String × Value) → Prop
  | [] => True
  | (_, v) :: fs => v.Basic ∧ BasicFields fs

end

mutual

/-- Texts and numbers of 64 bits, and lists and objects of them. -/
def Value.Plain : Value → Prop
  | .natural n => n ≤ maxWord
  | .text _ => True
  | .list vs => PlainItems vs
  | .object fs => PlainFields fs
  | _ => False

def PlainItems : List Value → Prop
  | [] => True
  | v :: vs => v.Plain ∧ PlainItems vs

def PlainFields : List (String × Value) → Prop
  | [] => True
  | (_, v) :: fs => v.Plain ∧ PlainFields fs

end

theorem basicItems_iff {vs : List Value} : BasicItems vs ↔ ∀ v ∈ vs, v.Basic := by
  induction vs with
  | nil => simp [BasicItems]
  | cons v vs ih => simp [BasicItems, ih]

theorem basicFields_iff {fs : List (String × Value)} : BasicFields fs ↔ ∀ f ∈ fs, f.2.Basic := by
  induction fs with
  | nil => simp [BasicFields]
  | cons f fs ih => simp [BasicFields, ih]

theorem plainItems_iff {vs : List Value} : PlainItems vs ↔ ∀ v ∈ vs, v.Plain := by
  induction vs with
  | nil => simp [PlainItems]
  | cons v vs ih => simp [PlainItems, ih]

theorem plainFields_iff {fs : List (String × Value)} : PlainFields fs ↔ ∀ f ∈ fs, f.2.Plain := by
  induction fs with
  | nil => simp [PlainFields]
  | cons f fs ih => simp [PlainFields, ih]

theorem Splits.newline {s : List Char} {ts : List Token} (level : Nat) (h : Splits s ts) :
    Splits (newline level ++ s) ts := by
  refine .space (by decide) ?_
  induction 2 * level with
  | zero => exact h
  | succ k ih => exact .space (by decide) ih

theorem endsNumber_newline (level : Nat) (s : List Char) : EndsNumber (newline level ++ s) := by
  simp only [Json.newline, List.cons_append, EndsNumber]
  decide

theorem Splits.mark {c : Char} {t : Token} {s : List Char} {ts : List Token}
    (hspace : isSpace c = false) (hmark : ∀ r, tokenAt c r = (t, r)) (h : Splits s ts) :
    Splits (c :: s) (t :: ts) :=
  .token hspace (hmark s) Nat.le.refl h

mutual

/-- A printed value is split into its tokens, if no digit follows it. -/
theorem splits_write (level : Nat) (v : Value) (hv : v.Basic) {s : List Char} {ts : List Token}
    (hs : EndsNumber s) (h : Splits s ts) :
    Splits (write level v ++ s) (v.tokens.map Token.printed ++ ts) := by
  match v with
  | .null => exact hv.elim
  | .boolean _ => exact hv.elim
  | .decimal _ => exact hv.elim
  | .natural n =>
    rw [write, Value.tokens]
    exact Splits.natural n hs h
  | .text text =>
    rw [write, Value.tokens]
    exact Splits.text text h
  | .list [] =>
    rw [write, Value.tokens]
    exact .mark (by decide) (fun _ => rfl) (.mark (by decide) (fun _ => rfl) h)
  | .list (v :: vs) =>
    have hclose : Splits (newline level ++ (']' :: s)) (.rightBracket :: ts) :=
      .newline level (.mark (by decide) (fun _ => rfl) h)
    obtain ⟨hends, hitems⟩ :=
      splits_writeItems (level + 1) vs hv.2 (endsNumber_newline level _) hclose
    have hfirst := splits_write (level + 1) v hv.1 hends hitems
    rw [write, Value.tokens]
    simpa [Token.printed] using
      Splits.mark (c := '[') (by decide) (fun _ => rfl) (.newline (level + 1) hfirst)
  | .object [] =>
    rw [write, Value.tokens]
    exact .mark (by decide) (fun _ => rfl) (.mark (by decide) (fun _ => rfl) h)
  | .object (f :: fs) =>
    have hclose : Splits (newline level ++ ('}' :: s)) (.rightBrace :: ts) :=
      .newline level (.mark (by decide) (fun _ => rfl) h)
    obtain ⟨hends, hfields⟩ :=
      splits_writeFields (level + 1) fs hv.2 (endsNumber_newline level _) hclose
    have hfirst := splits_writeField (level + 1) f hv.1 hends hfields
    rw [write, Value.tokens]
    simpa [Token.printed] using
      Splits.mark (c := '{') (by decide) (fun _ => rfl) (.newline (level + 1) hfirst)

theorem splits_writeItems (level : Nat) (vs : List Value) (hvs : BasicItems vs) {s : List Char}
    {ts : List Token} (hs : EndsNumber s) (h : Splits s ts) :
    EndsNumber (writeItems level vs ++ s) ∧
      Splits (writeItems level vs ++ s) ((itemTokens vs).map Token.printed ++ ts) := by
  match vs with
  | [] => exact ⟨hs, h⟩
  | v :: vs =>
    obtain ⟨hends, hitems⟩ := splits_writeItems level vs hvs.2 hs h
    have hitem := splits_write level v hvs.1 hends hitems
    rw [writeItems, itemTokens]
    refine ⟨⟨by decide, by decide, by decide, by decide⟩, ?_⟩
    simpa [Token.printed] using
      Splits.mark (c := ',') (by decide) (fun _ => rfl) (.newline level hitem)

theorem splits_writeField (level : Nat) (f : String × Value) (hf : f.2.Basic) {s : List Char}
    {ts : List Token} (hs : EndsNumber s) (h : Splits s ts) :
    Splits (writeField level f ++ s) ((fieldTokens f).map Token.printed ++ ts) := by
  match f with
  | (name, v) =>
    have hvalue := splits_write level v hf hs h
    have hcolon : Splits (':' :: ' ' :: (write level v ++ s))
        (.colon :: (v.tokens.map Token.printed ++ ts)) :=
      .mark (by decide) (fun _ => rfl) (.space (by decide) hvalue)
    rw [writeField, fieldTokens]
    simpa [Token.printed] using Splits.text name hcolon

theorem splits_writeFields (level : Nat) (fs : List (String × Value)) (hfs : BasicFields fs)
    {s : List Char} {ts : List Token} (hs : EndsNumber s) (h : Splits s ts) :
    EndsNumber (writeFields level fs ++ s) ∧
      Splits (writeFields level fs ++ s) ((entryTokens fs).map Token.printed ++ ts) := by
  match fs with
  | [] => exact ⟨hs, h⟩
  | f :: fs =>
    obtain ⟨hends, hfields⟩ := splits_writeFields level fs hfs.2 hs h
    have hfield := splits_writeField level f hfs.1 hends hfields
    rw [writeFields, entryTokens]
    refine ⟨⟨by decide, by decide, by decide, by decide⟩, ?_⟩
    simpa [Token.printed] using
      Splits.mark (c := ',') (by decide) (fun _ => rfl) (.newline level hfield)

end

/-- The text of a value of texts and numbers is split into its tokens as they are printed. -/
theorem tokens_basic {v : Value} (hv : v.Basic) :
    tokens v.pretty.toList = v.tokens.map Token.printed := by
  have h : Splits (write 0 v ++ []) (v.tokens.map Token.printed ++ []) :=
    splits_write 0 v hv trivial .nil
  rw [List.append_nil, List.append_nil] at h
  rw [Value.pretty, String.toList_ofList]
  exact h.tokens_eq

mutual

/-- The tokens of a plain value are printed as they are. -/
theorem Value.Plain.printed {v : Value} (hv : v.Plain) :
    v.Basic ∧ v.tokens.map Token.printed = v.tokens := by
  match v with
  | .null => exact hv.elim
  | .boolean _ => exact hv.elim
  | .decimal _ => exact hv.elim
  | .natural n =>
    refine ⟨trivial, ?_⟩
    rw [Value.tokens, List.map_singleton, Token.printed, printedNumber_of_le hv]
  | .text text =>
    rw [Value.tokens]
    exact ⟨trivial, rfl⟩
  | .list [] =>
    rw [Value.tokens]
    exact ⟨trivial, rfl⟩
  | .list (v :: vs) =>
    obtain ⟨hbasic, htokens⟩ := Value.Plain.printed hv.1
    obtain ⟨hbasics, hitems⟩ := PlainItems.printed hv.2
    refine ⟨⟨hbasic, hbasics⟩, ?_⟩
    simp [Value.tokens, htokens, hitems, Token.printed]
  | .object [] =>
    rw [Value.tokens]
    exact ⟨trivial, rfl⟩
  | .object ((name, v) :: fs) =>
    obtain ⟨hbasic, htokens⟩ := Value.Plain.printed hv.1
    obtain ⟨hbasics, hfields⟩ := PlainFields.printed hv.2
    refine ⟨⟨hbasic, hbasics⟩, ?_⟩
    simp [Value.tokens, fieldTokens, htokens, hfields, Token.printed]

theorem PlainItems.printed {vs : List Value} (hvs : PlainItems vs) :
    BasicItems vs ∧ (itemTokens vs).map Token.printed = itemTokens vs := by
  match vs with
  | [] => exact ⟨trivial, rfl⟩
  | v :: vs =>
    obtain ⟨hbasic, htokens⟩ := Value.Plain.printed hvs.1
    obtain ⟨hbasics, hitems⟩ := PlainItems.printed hvs.2
    refine ⟨⟨hbasic, hbasics⟩, ?_⟩
    simp [itemTokens, htokens, hitems, Token.printed]

theorem PlainFields.printed {fs : List (String × Value)} (hfs : PlainFields fs) :
    BasicFields fs ∧ (entryTokens fs).map Token.printed = entryTokens fs := by
  match fs with
  | [] => exact ⟨trivial, rfl⟩
  | (name, v) :: fs =>
    obtain ⟨hbasic, htokens⟩ := Value.Plain.printed hfs.1
    obtain ⟨hbasics, hfields⟩ := PlainFields.printed hfs.2
    refine ⟨⟨hbasic, hbasics⟩, ?_⟩
    simp [entryTokens, fieldTokens, htokens, hfields, Token.printed]

end

/-- The text of a plain value is split into its tokens. -/
theorem tokens_pretty {v : Value} (hv : v.Plain) : tokens v.pretty.toList = v.tokens := by
  rw [tokens_basic hv.printed.1, hv.printed.2]

end Json
end TrustTrial
