import TrustTrial.Notary.Desk

/-!
# TrustTrial.Proofs.Lines

The input of the notary, line by line. A line that was typed is read back as it was, whatever
follows it.
-/

namespace TrustTrial
namespace Notary

/-- The bytes of a text. -/
def bytes (s : String) : List UInt8 := s.toUTF8.data.toList

theorem bytes_append (a b : String) : bytes (a ++ b) = bytes a ++ bytes b := by
  simp [bytes]

theorem bytes_eq (s : String) : bytes s = s.toList.flatMap String.utf8EncodeChar := by
  have h := String.toByteArray_ofList (l := s.toList)
  rw [String.ofList_toList] at h
  rw [bytes, String.toUTF8_eq_toByteArray, h, List.utf8Encode]
  simp

/-- Only a line feed has the byte of a line feed. -/
theorem eq_newline_of_mem {c : Char} (h : (10 : UInt8) ∈ String.utf8EncodeChar c) : c = '\n' := by
  have hbyte : ∀ n, (10 : UInt8) = UInt8.ofNat n → n % 256 = 10 := by
    intro n hn
    simpa using (congrArg UInt8.toNat hn).symm
  unfold String.utf8EncodeChar at h
  simp only at h
  split at h
  · have hn := hbyte _ (List.mem_singleton.1 h)
    have hval : c.toNat = c.val.toNat := rfl
    have hc : c.toNat = 10 := by omega
    rw [← Char.ofNat_toNat c, hc]
  · exfalso
    split at h
    · simp only [List.mem_cons, List.not_mem_nil, or_false] at h
      rcases h with h | h
      all_goals
        have hn := hbyte _ h
        omega
    · split at h
      · simp only [List.mem_cons, List.not_mem_nil, or_false] at h
        rcases h with h | h | h
        all_goals
          have hn := hbyte _ h
          omega
      · simp only [List.mem_cons, List.not_mem_nil, or_false] at h
        rcases h with h | h | h | h
        all_goals
          have hn := hbyte _ h
          omega

theorem newline_notMem_bytes {s : String} (h : '\n' ∉ s.toList) : (10 : UInt8) ∉ bytes s := by
  rw [bytes_eq, List.mem_flatMap]
  rintro ⟨c, hc, hmem⟩
  exact h (eq_newline_of_mem hmem ▸ hc)

theorem takeWhile_line {line rest : List UInt8} (hline : (10 : UInt8) ∉ line)
    (hrest : rest.head?.getD 10 = 10) :
    (line ++ rest).takeWhile (· ≠ 10) = line ∧ (line ++ rest).dropWhile (· ≠ 10) = rest := by
  induction line with
  | nil =>
    cases rest with
    | nil => exact ⟨rfl, rfl⟩
    | cons b rest =>
      obtain rfl : b = 10 := hrest
      exact ⟨rfl, rfl⟩
  | cons b line ih =>
    rw [List.mem_cons, not_or] at hline
    obtain ⟨htake, hdrop⟩ := ih hline.2
    have hb : b ≠ 10 := fun he => hline.1 he.symm
    rw [List.cons_append, List.takeWhile_cons_of_pos (by simp [hb]),
      List.dropWhile_cons_of_pos (by simp [hb]), htake, hdrop]
    exact ⟨rfl, rfl⟩

theorem cutLine_line {line : List UInt8} (h : (10 : UInt8) ∉ line) (rest : List UInt8) :
    Text.cutLine (line ++ 10 :: rest) = (line, rest) := by
  obtain ⟨htake, hdrop⟩ := takeWhile_line h (show (10 :: rest).head?.getD 10 = 10 from rfl)
  rw [Text.cutLine, htake, hdrop]
  rfl

theorem cutLine_end {line : List UInt8} (h : (10 : UInt8) ∉ line) :
    Text.cutLine line = (line, []) := by
  obtain ⟨htake, hdrop⟩ := takeWhile_line h (show ([] : List UInt8).head?.getD 10 = 10 from rfl)
  rw [List.append_nil] at htake hdrop
  rw [Text.cutLine, htake, hdrop]
  rfl

theorem fromUTF8?_bytes (s : String) : String.fromUTF8? ⟨(bytes s).toArray⟩ = some s := by
  have h : (⟨(bytes s).toArray⟩ : ByteArray) = s.toUTF8 := by simp [bytes]
  rw [h, Text.fromUTF8?_toUTF8]

theorem lineText_bytes (s : String) : Text.lineText (bytes s) = some (Text.dropLineEnds s) := by
  rw [Text.lineText, fromUTF8?_bytes]
  rfl

/-- A line as it is typed: it holds no line feed and does not end in a carriage return. -/
structure Typed (line : String) : Prop where
  single : '\n' ∉ line.toList
  ending : line.toList.getLast? ≠ some '\r'

theorem Typed.dropLineEnds {line : String} (h : Typed line) : Text.dropLineEnds line = line := by
  have hdrop : line.toList.reverse.dropWhile Text.isLineEnd = line.toList.reverse := by
    cases hline : line.toList.reverse with
    | nil => rfl
    | cons c cs =>
      have hmem : c ∈ line.toList := by
        rw [← List.mem_reverse, hline]
        exact List.mem_cons_self
      have hlast : line.toList.getLast? = some c := by
        rw [← List.head?_reverse, hline]
        rfl
      have hnewline : c ≠ '\n' := fun he => h.single (he ▸ hmem)
      have hreturn : c ≠ '\r' := fun he => h.ending (he ▸ hlast)
      simp [Text.isLineEnd, hnewline, hreturn]
  rw [Text.dropLineEnds, hdrop, List.reverse_reverse, String.ofList_toList]

end Notary
end TrustTrial
