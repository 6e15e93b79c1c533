import TrustTrial.Text.Utf8

/-!
# TrustTrial.Proofs.Decoding

How much of some bytes is left when they are read as text. A text without replacement characters
was read from its own encoding and from no other bytes (`toUTF8_ofBytes`); a replacement character
may stand for any of the parts that are no UTF-8.
-/

namespace TrustTrial
namespace Text

/-! ## Characters -/

theorem toNat_val_ofNat {n : Nat} (h : n.isValidChar) : (Char.ofNat n).val.toNat = n := by
  rw [Char.ofNat, dif_pos h]
  rfl

theorem isContinuation_iff (b : UInt8) :
    isContinuation b = true ↔ 0x80 ≤ b.toNat ∧ b.toNat ≤ 0xbf := by
  simp only [isContinuation, Bool.and_eq_true, decide_eq_true_eq, UInt8.le_iff_toNat_le]
  rfl

section Encoding

variable {a b c d : UInt8}

theorem utf8EncodeChar_one (ha : a.toNat < 0x80) :
    String.utf8EncodeChar (Char.ofNat a.toNat) = [a] := by
  have hvalid : a.toNat.isValidChar := .inl (by omega)
  simp only [String.utf8EncodeChar, toNat_val_ofNat hvalid, if_pos (show a.toNat ≤ 127 by omega),
    UInt8.ofNat_toNat]

theorem utf8EncodeChar_two (ha : 0xc2 ≤ a.toNat ∧ a.toNat ≤ 0xdf) (hb : isContinuation b = true) :
    String.utf8EncodeChar (Char.ofNat (a.toNat % 32 * 64 + b.toNat % 64)) = [a, b] := by
  rw [isContinuation_iff] at hb
  generalize hn : a.toNat % 32 * 64 + b.toNat % 64 = n
  have hvalid : n.isValidChar := .inl (by omega)
  have hlead : UInt8.ofNat (n / 64 % 32 + 192) = a := by
    rw [← UInt8.toNat_inj, UInt8.toNat_ofNat']
    omega
  have hlast : UInt8.ofNat (n % 64 + 128) = b := by
    rw [← UInt8.toNat_inj, UInt8.toNat_ofNat']
    omega
  simp only [String.utf8EncodeChar, toNat_val_ofNat hvalid, if_neg (show ¬n ≤ 127 by omega),
    if_pos (show n ≤ 2047 by omega), hlead, hlast]

/-- What may come second after the lead of three or four bytes, range by range. -/
theorem maySecond_iff (a b : UInt8) :
    maySecond a b = true ↔ 0x80 ≤ b.toNat ∧ b.toNat ≤ 0xbf ∧
      (a.toNat = 0xe0 → 0xa0 ≤ b.toNat) ∧ (a.toNat = 0xed → b.toNat ≤ 0x9f) ∧
      (a.toNat = 0xf0 → 0x90 ≤ b.toNat) ∧ (a.toNat = 0xf4 → b.toNat ≤ 0x8f) := by
  have heq : ∀ k : UInt8, a = k ↔ a.toNat = k.toNat := fun k => UInt8.toNat_inj.symm
  rw [maySecond]
  simp only [heq, isContinuation, UInt8.le_iff_toNat_le, UInt8.reduceToNat]
  split
  · simp
    omega
  · split
    · simp
      omega
    · split
      · simp
        omega
      · split
        · simp
          omega
        · simp
          omega

theorem utf8EncodeChar_three (ha : 0xe0 ≤ a.toNat ∧ a.toNat ≤ 0xef) (hb : maySecond a b = true)
    (hc : isContinuation c = true) :
    String.utf8EncodeChar
      (Char.ofNat (a.toNat % 16 * 4096 + b.toNat % 64 * 64 + c.toNat % 64)) = [a, b, c] := by
  rw [isContinuation_iff] at hc
  obtain ⟨hb, hb', hshort, hsurrogate, -⟩ := (maySecond_iff a b).1 hb
  generalize hn : a.toNat % 16 * 4096 + b.toNat % 64 * 64 + c.toNat % 64 = n
  have hvalid : n.isValidChar := by
    rw [Nat.isValidChar]
    omega
  have hlead : UInt8.ofNat (n / 4096 % 16 + 224) = a := by
    rw [← UInt8.toNat_inj, UInt8.toNat_ofNat']
    omega
  have hsecond : UInt8.ofNat (n / 64 % 64 + 128) = b := by
    rw [← UInt8.toNat_inj, UInt8.toNat_ofNat']
    omega
  have hlast : UInt8.ofNat (n % 64 + 128) = c := by
    rw [← UInt8.toNat_inj, UInt8.toNat_ofNat']
    omega
  simp only [String.utf8EncodeChar, toNat_val_ofNat hvalid, if_neg (show ¬n ≤ 127 by omega),
    if_neg (show ¬n ≤ 2047 by omega), if_pos (show n ≤ 65535 by omega), hlead, hsecond, hlast]

theorem utf8EncodeChar_four (ha : 0xf0 ≤ a.toNat ∧ a.toNat ≤ 0xf4) (hb : maySecond a b = true)
    (hc : isContinuation c = true) (hd : isContinuation d = true) :
    String.utf8EncodeChar (Char.ofNat (a.toNat % 8 * 262144 + b.toNat % 64 * 4096 +
      c.toNat % 64 * 64 + d.toNat % 64)) = [a, b, c, d] := by
  rw [isContinuation_iff] at hc hd
  obtain ⟨hb, hb', -, -, hshort, hlong⟩ := (maySecond_iff a b).1 hb
  generalize hn : a.toNat % 8 * 262144 + b.toNat % 64 * 4096 + c.toNat % 64 * 64 + d.toNat % 64 = n
  have hvalid : n.isValidChar := by
    rw [Nat.isValidChar]
    omega
  have hlead : UInt8.ofNat (n / 262144 % 8 + 240) = a := by
    rw [← UInt8.toNat_inj, UInt8.toNat_ofNat']
    omega
  have hsecond : UInt8.ofNat (n / 4096 % 64 + 128) = b := by
    rw [← UInt8.toNat_inj, UInt8.toNat_ofNat']
    omega
  have hthird : UInt8.ofNat (n / 64 % 64 + 128) = c := by
    rw [← UInt8.toNat_inj, UInt8.toNat_ofNat']
    omega
  have hlast : UInt8.ofNat (n % 64 + 128) = d := by
    rw [← UInt8.toNat_inj, UInt8.toNat_ofNat']
    omega
  simp only [String.utf8EncodeChar, toNat_val_ofNat hvalid, if_neg (show ¬n ≤ 127 by omega),
    if_neg (show ¬n ≤ 2047 by omega), if_neg (show ¬n ≤ 65535 by omega), hlead, hsecond, hthird,
    hlast]

end Encoding

/-- A character that is no replacement character has been read from its own encoding. -/
theorem encode_scalarFrom {a : UInt8} {rest : List UInt8}
    (h : (scalarFrom a rest).1 ≠ replacement) :
    String.utf8EncodeChar (scalarFrom a rest).1 = a :: rest.take (scalarFrom a rest).2 := by
  unfold scalarFrom at h ⊢
  simp only [Bool.and_eq_true, decide_eq_true_eq, UInt8.le_iff_toNat_le, UInt8.lt_iff_toNat_lt,
    UInt8.reduceToNat] at h ⊢
  by_cases hone : a.toNat < 128
  · rw [if_pos hone]
    exact utf8EncodeChar_one hone
  rw [if_neg hone] at h ⊢
  by_cases htwo : 194 ≤ a.toNat ∧ a.toNat ≤ 223
  · rw [if_pos htwo] at h ⊢
    split at h
    · rename_i b _
      by_cases hb : isContinuation b = true
      · simp only [hb, if_true]
        exact utf8EncodeChar_two htwo hb
      · simp [hb] at h
    · exact absurd rfl h
  rw [if_neg htwo] at h ⊢
  by_cases hthree : 224 ≤ a.toNat ∧ a.toNat ≤ 239
  · rw [if_pos hthree] at h ⊢
    split at h
    · rename_i b c _
      by_cases hb : maySecond a b = true
      · by_cases hc : isContinuation c = true
        · simp only [hb, hc, if_true]
          exact utf8EncodeChar_three hthree hb hc
        · simp [hb, hc] at h
      · simp [hb] at h
    · exact absurd rfl h
    · exact absurd rfl h
  rw [if_neg hthree] at h ⊢
  by_cases hfour : 240 ≤ a.toNat ∧ a.toNat ≤ 244
  · rw [if_pos hfour] at h ⊢
    split at h
    · rename_i b c d _
      by_cases hb : maySecond a b = true
      · by_cases hc : isContinuation c = true
        · by_cases hd : isContinuation d = true
          · simp only [hb, hc, hd, if_true]
            exact utf8EncodeChar_four hfour hb hc hd
          · simp [hb, hc, hd] at h
        · simp [hb, hc] at h
      · simp [hb] at h
    · exact absurd rfl h
    · exact absurd rfl h
    · exact absurd rfl h
  · rw [if_neg hfour] at h
    exact absurd rfl h

/-! ## Texts -/

theorem flatMap_repairFrom {fuel : Nat} {bytes : List UInt8} (hfuel : bytes.length ≤ fuel)
    (h : replacement ∉ repairFrom fuel bytes) :
    (repairFrom fuel bytes).flatMap String.utf8EncodeChar = bytes := by
  induction fuel generalizing bytes with
  | zero =>
    rw [List.length_eq_zero_iff.1 (Nat.le_zero.1 hfuel)]
    rfl
  | succ fuel ih =>
    cases bytes with
    | nil => rfl
    | cons a rest =>
      rw [repairFrom, List.mem_cons, not_or] at h
      have hrest : (rest.drop (scalarFrom a rest).2).length ≤ fuel := by
        rw [List.length_drop]
        rw [List.length_cons] at hfuel
        omega
      rw [repairFrom, List.flatMap_cons, encode_scalarFrom (Ne.symm h.1), ih hrest h.2,
        List.cons_append, List.take_append_drop]

theorem loop_eq (bytes : ByteArray) (i : Nat) (read : List UInt8) :
    ByteArray.toList.loop bytes i read = read.reverse ++ bytes.data.toList.drop i := by
  induction i, read using ByteArray.toList.loop.induct bytes with
  | case1 i read hlt ih =>
    have hlt' : i < bytes.data.toList.length := hlt
    rw [ByteArray.toList.loop, if_pos hlt, ih, List.reverse_cons, List.append_assoc,
      List.drop_eq_getElem_cons hlt', List.singleton_append]
    congr 2
    rw [ByteArray.get!, getElem!_pos bytes.data i hlt, Array.getElem_toList]
  | case2 i read hge =>
    have hge' : bytes.data.toList.length ≤ i := Nat.not_lt.1 hge
    rw [ByteArray.toList.loop, if_neg hge, List.drop_eq_nil_of_le hge', List.append_nil]

theorem toList_eq_data (bytes : ByteArray) : bytes.toList = bytes.data.toList := by
  rw [ByteArray.toList, loop_eq, List.reverse_nil, List.nil_append, List.drop_zero]

/-- A text without replacement characters was read from its own encoding. -/
theorem toUTF8_ofBytes {bytes : ByteArray} (h : replacement ∉ (ofBytes bytes).toList) :
    (ofBytes bytes).toUTF8 = bytes := by
  rw [ofBytes] at h ⊢
  split at h
  · rename_i s hs
    rw [String.fromUTF8?] at hs
    split at hs
    · rename_i hvalid
      cases hs
      rfl
    · cases hs
  · rename_i hinvalid
    rw [String.toList_ofList, repairChars] at h
    have hread := flatMap_repairFrom (Nat.le_refl _) h
    rw [String.toUTF8_eq_toByteArray, String.toByteArray_ofList, List.utf8Encode, repairChars, hread]
    apply ByteArray.ext
    rw [List.data_toByteArray, toList_eq_data, Array.toArray_toList]

/-- Well-formed bytes are the encoding of what they are read as, replacement characters or not. -/
theorem toUTF8_ofBytes_of_valid {bytes : ByteArray} (h : bytes.IsValidUTF8) :
    (ofBytes bytes).toUTF8 = bytes := by
  have hread : String.fromUTF8? bytes = some (String.fromUTF8 bytes h) := by
    rw [String.fromUTF8?, dif_pos h]
  rw [ofBytes, hread]
  rfl

/-- Of all bytes that are read as a text without replacement characters, only one kind is. -/
theorem ofBytes_inj {a b : ByteArray} (hsame : ofBytes a = ofBytes b)
    (h : replacement ∉ (ofBytes a).toList) : a = b := by
  rw [← toUTF8_ofBytes h, hsame, toUTF8_ofBytes (hsame ▸ h)]

theorem ofBytes_inj_of_valid {a b : ByteArray} (hsame : ofBytes a = ofBytes b)
    (ha : a.IsValidUTF8) (hb : b.IsValidUTF8) : a = b := by
  rw [← toUTF8_ofBytes_of_valid ha, hsame, toUTF8_ofBytes_of_valid hb]

end Text
end TrustTrial
