/-!
# TrustTrial.Text.Utf8

Bytes as text. Well-formed UTF-8 is read as it stands; otherwise every maximal part that begins no
character, or only begins one, is read as one replacement character.
-/

namespace TrustTrial
namespace Text

def replacement : Char := '\ufffd'

def isContinuation (b : UInt8) : Bool := 0x80 ≤ b && b ≤ 0xbf

/-- Whether `b` may follow the lead `a` of three or four bytes; excludes overlong forms, surrogates
and code points out of range. -/
def maySecond (a b : UInt8) : Bool :=
  if a = 0xe0 then 0xa0 ≤ b && b ≤ 0xbf
  else if a = 0xed then 0x80 ≤ b && b ≤ 0x9f
  else if a = 0xf0 then 0x90 ≤ b && b ≤ 0xbf
  else if a = 0xf4 then 0x80 ≤ b && b ≤ 0x8f
  else isContinuation b

/-- The character that opens with `a`, and how many of the bytes after `a` belong to it. -/
def scalarFrom (a : UInt8) (rest : List UInt8) : Char × Nat :=
  let bits (b : UInt8) (n : Nat) := b.toNat % n
  if a < 0x80 then (Char.ofNat a.toNat, 0)
  else if 0xc2 ≤ a && a ≤ 0xdf then
    match rest with
    | b :: _ =>
      if isContinuation b then (Char.ofNat (bits a 32 * 64 + bits b 64), 1) else (replacement, 0)
    | [] => (replacement, 0)
  else if 0xe0 ≤ a && a ≤ 0xef then
    match rest with
    | b :: c :: _ =>
      if maySecond a b then
        if isContinuation c then
          (Char.ofNat (bits a 16 * 4096 + bits b 64 * 64 + bits c 64), 2)
        else (replacement, 1)
      else (replacement, 0)
    | [b] => (replacement, if maySecond a b then 1 else 0)
    | [] => (replacement, 0)
  else if 0xf0 ≤ a && a ≤ 0xf4 then
    match rest with
    | b :: c :: d :: _ =>
      if maySecond a b then
        if isContinuation c then
          if isContinuation d then
            (Char.ofNat (bits a 8 * 262144 + bits b 64 * 4096 + bits c 64 * 64 + bits d 64), 3)
          else (replacement, 2)
        else (replacement, 1)
      else (replacement, 0)
    | [b, c] =>
      (replacement, if maySecond a b then if isContinuation c then 2 else 1 else 0)
    | [b] => (replacement, if maySecond a b then 1 else 0)
    | [] => (replacement, 0)
  else (replacement, 0)

/-- Reads up to `fuel` characters; every character takes at least one byte. -/
def repairFrom : Nat → List UInt8 → List Char
  | _, [] => []
  | 0, _ :: _ => []
  | fuel + 1, a :: rest =>
    (scalarFrom a rest).1 :: repairFrom fuel (rest.drop (scalarFrom a rest).2)

def repairChars (bytes : List UInt8) : List Char := repairFrom bytes.length bytes

/-- Bytes read as text, with replacement characters where they are no UTF-8. -/
def ofBytes (bytes : ByteArray) : String :=
  match String.fromUTF8? bytes with
  | some s => s
  | none => .ofList (repairChars bytes.toList)

theorem fromUTF8?_toUTF8 (s : String) : String.fromUTF8? s.toUTF8 = some s := by
  rw [String.fromUTF8?, String.toUTF8_eq_toByteArray, dif_pos s.isValidUTF8]
  rfl

@[simp] theorem ofBytes_toUTF8 (s : String) : ofBytes s.toUTF8 = s := by
  simp only [ofBytes, fromUTF8?_toUTF8]

end Text
end TrustTrial
