import TrustTrial.Text.Span

/-!
# TrustTrial.Text.Blank

Blank characters are those with the Unicode property `White_Space`. On them rest trimming, the
splitting of a row into words, and the rows of a listing.

Everything is stated on lists of characters; the functions on `String` only wrap them.
-/

namespace TrustTrial
namespace Text

def blankSpans : List (Nat × Nat) := [
  (0x9, 0xd), (0x20, 0x20), (0x85, 0x85), (0xa0, 0xa0), (0x1680, 0x1680), (0x2000, 0x200a),
  (0x2028, 0x2029), (0x202f, 0x202f), (0x205f, 0x205f), (0x3000, 0x3000)]

def isBlank (c : Char) : Bool := spanned blankSpans c.toNat

/-- Removes blanks at both ends. -/
def trimChars (s : List Char) : List Char :=
  ((s.dropWhile isBlank).reverse.dropWhile isBlank).reverse

/-- The maximal runs of characters that are not blank. -/
def wordChars : List Char → List (List Char)
  | [] => []
  | c :: s =>
    if isBlank c then wordChars s
    else
      match s with
      | [] => [[c]]
      | d :: _ =>
        if isBlank d then [c] :: wordChars s
        else
          match wordChars s with
          | [] => [[c]]
          | w :: ws => (c :: w) :: ws

/-- Lines without their line feeds; a line feed at the end opens no further line. -/
def lineChars : List Char → List (List Char)
  | [] => []
  | c :: s =>
    if c = '\n' then [] :: lineChars s
    else
      match lineChars s with
      | [] => [[c]]
      | l :: ls => (c :: l) :: ls

/-- Trimmed lines that hold at least one character that is not blank. -/
def rowChars (s : List Char) : List (List Char) :=
  ((lineChars s).map trimChars).filter (fun row => !row.isEmpty)

def trim (s : String) : String := .ofList (trimChars s.toList)

/-- The trimmed text, or nothing if only blanks are there. -/
def trimmed? (s : String) : Option String :=
  match trimChars s.toList with
  | [] => none
  | c :: cs => some (.ofList (c :: cs))

def rows (s : String) : List String := (rowChars s.toList).map .ofList

/-- The first word; the empty text if there is none. -/
def firstWord (s : String) : String :=
  match wordChars s.toList with
  | [] => ""
  | w :: _ => .ofList w

/-- The last word; the empty text if there is none. -/
def lastWord (s : String) : String :=
  match (wordChars s.toList).getLast? with
  | none => ""
  | some w => .ofList w

end Text
end TrustTrial
