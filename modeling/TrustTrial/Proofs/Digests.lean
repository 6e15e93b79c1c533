import TrustTrial.Notary.Record
import TrustTrial.Proofs.Texts

/-!
# TrustTrial.Proofs.Digests

What a digest tells of a content. A step of the digest can be undone, for a fixed byte and for a
fixed state: the factor is odd, so it has an inverse. Two contents that differ in a single byte
therefore have different digests, wherever the byte stands.
-/

namespace TrustTrial
namespace Notary

/-! ## One step -/

/-- The factor of a step is a unit. -/
def digestInverse : UInt64 := 0xce965057aff6957b

theorem digestFactor_mul_inverse : digestFactor * digestInverse = 1 := by decide

theorem mul_digestFactor_injective : Function.Injective (· * digestFactor) := by
  intro a b h
  have hundo : ∀ c : UInt64, c * digestFactor * digestInverse = c := by
    intro c
    rw [UInt64.mul_assoc, digestFactor_mul_inverse, UInt64.mul_one]
  rw [← hundo a, ← hundo b]
  exact congrArg (· * digestInverse) h

/-- From different states a byte leads to different states. -/
theorem digestStep_injective (byte : UInt8) : Function.Injective (digestStep · byte) := by
  intro a b h
  have hxor : a ^^^ byte.toUInt64 = b ^^^ byte.toUInt64 := mul_digestFactor_injective h
  simpa using hxor

/-- From one state different bytes lead to different states. -/
theorem digestStep_byte_injective (hash : UInt64) : Function.Injective (digestStep hash) := by
  intro x y h
  have hxor : hash ^^^ x.toUInt64 = hash ^^^ y.toUInt64 := mul_digestFactor_injective h
  have hbyte : x.toUInt64 = y.toUInt64 := by simpa using hxor
  exact UInt8.toUInt64_inj.1 hbyte

/-! ## Contents -/

/-- The state of a digest after some bytes. -/
def digestState (hash : UInt64) (bytes : List UInt8) : UInt64 := bytes.foldl digestStep hash

/-- From different states the same bytes lead to different states. -/
theorem digestState_injective (bytes : List UInt8) : Function.Injective (digestState · bytes) := by
  induction bytes with
  | nil => exact Function.injective_id
  | cons byte bytes ih => exact fun a b h => digestStep_injective byte (ih h)

theorem digest_inj {a b : ByteArray} :
    digest a = digest b ↔
      digestState digestStart a.data.toList = digestState digestStart b.data.toList := by
  refine ⟨fun h => ?_, fun h => ?_⟩
  · exact UInt64.toNat_inj.1 (Text.hexadecimal_injective 16 h)
  · rw [digest, digest]
    exact congrArg (fun hash => Text.hexadecimal 16 (UInt64.toNat hash)) h

/-- Two contents that differ in one byte and nowhere else. -/
def OneByteApart (a b : ByteArray) : Prop :=
  ∃ front x y back, a.data.toList = front ++ x :: back ∧ b.data.toList = front ++ y :: back ∧ x ≠ y

/-- Up to the byte the states are the same, after it they differ, and so they do up to the end. -/
theorem OneByteApart.digest_ne {a b : ByteArray} (h : OneByteApart a b) : digest a ≠ digest b := by
  obtain ⟨front, x, y, back, ha, hb, hne⟩ := h
  intro hdigest
  rw [digest_inj, ha, hb] at hdigest
  simp only [digestState, List.foldl_append, List.foldl_cons] at hdigest
  exact hne (digestStep_byte_injective _ (digestState_injective back hdigest))

/-- A content is known again exactly if its length and its digest are the same. -/
theorem ofContent_eq_iff {a b : ByteArray} :
    Target.ofContent a = Target.ofContent b ↔ a.size = b.size ∧ digest a = digest b := by
  rw [Target.ofContent, Target.ofContent, Target.mk.injEq, and_comm]

end Notary
end TrustTrial
