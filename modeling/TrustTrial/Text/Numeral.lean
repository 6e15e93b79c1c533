/-!
# TrustTrial.Text.Numeral

Whole numbers in decimal notation, and fixed-width hexadecimal output.
-/

namespace TrustTrial
namespace Text

def isDigit (c : Char) : Bool := '0' ≤ c && c ≤ '9'

def digitValue (c : Char) : Nat := c.toNat - '0'.toNat

/-- The value of a run of decimal digits. -/
def digitsValue (s : List Char) : Nat := s.foldl (fun n c => 10 * n + digitValue c) 0

/-- One or more decimal digits. -/
def natOfChars? (s : List Char) : Option Nat :=
  if s.isEmpty || !s.all isDigit then none else some (digitsValue s)

/-- Digits after an optional plus sign, of a value up to `most`. -/
def natUpTo? (most : Nat) (s : String) : Option Nat :=
  let digits := match s.toList with
    | '+' :: rest => rest
    | s => s
  match natOfChars? digits with
  | none => none
  | some n => if n ≤ most then some n else none

/-- Digits after an optional sign, of a value from `least` to `most`. -/
def intWithin? (least most : Int) (s : String) : Option Int :=
  let value : Option Int := match s.toList with
    | '-' :: rest => (natOfChars? rest).map (fun n => -(n : Int))
    | '+' :: rest => (natOfChars? rest).map (fun n => (n : Int))
    | s => (natOfChars? s).map (fun n => (n : Int))
  match value with
  | none => none
  | some z => if least ≤ z ∧ z ≤ most then some z else none

/-- The largest number of 64 bits. -/
def maxWord : Nat := Nat.pow 2 64 - 1

/-- At least `width` hexadecimal digits. -/
def hexadecimal (width n : Nat) : String :=
  let digits := Nat.toDigits 16 n
  .ofList (List.replicate (width - digits.length) '0' ++ digits)

/-- Blanks after the text up to `width` characters; longer text stays whole. -/
def padded (width : Nat) (s : String) : String :=
  s ++ .ofList (List.replicate (width - s.toList.length) ' ')

end Text
end TrustTrial
