import TrustTrial.Text.Numeral
import TrustTrial.Toml.Item

/-!
# TrustTrial.Toml.Scalar

The parts of a TOML document that hold no other values: blanks, comments, line ends, texts, keys,
numbers and moments. A reader takes characters from the front and gives what it read and the rest;
nothing means that the document is no TOML.
-/

namespace TrustTrial
namespace Toml

open Text

/-! ## Blanks and lines -/

def isSpace (c : Char) : Bool := c = ' ' || c = '\t'

/-- Characters that may stand in comments and texts. -/
def isShown (c : Char) : Bool :=
  c = '\t' || (0x20 ≤ c.toNat && c.toNat ≤ 0x7e) || 0x80 ≤ c.toNat

def skipSpace (s : List Char) : List Char := s.dropWhile isSpace

def newline? : List Char → Option (List Char)
  | '\n' :: r => some r
  | '\r' :: '\n' :: r => some r
  | _ => none

/-- The end of a line after blanks and a comment; the end of the document is one too. -/
def lineEnd? (s : List Char) : Option (List Char) :=
  let s := match skipSpace s with
    | '#' :: r => r.dropWhile isShown
    | s => s
  match s with
  | [] => some []
  | s => newline? s

/-- Skips blanks, comments and line ends inside an array. -/
def skipBreaks : Nat → List Char → Option (List Char)
  | 0, s => some s
  | fuel + 1, s =>
    match skipSpace s with
    | '#' :: r =>
      match newline? (r.dropWhile isShown) with
      | none => none
      | some r => skipBreaks fuel r
    | '\n' :: r => skipBreaks fuel r
    | '\r' :: r =>
      match r with
      | '\n' :: r => skipBreaks fuel r
      | _ => none
    | s => some s

/-! ## Texts -/

def hexDigit? (c : Char) : Option Nat :=
  if '0' ≤ c ∧ c ≤ '9' then some (c.toNat - '0'.toNat)
  else if 'a' ≤ c ∧ c ≤ 'f' then some (c.toNat - 'a'.toNat + 10)
  else if 'A' ≤ c ∧ c ≤ 'F' then some (c.toNat - 'A'.toNat + 10)
  else none

/-- A character given by exactly `n` hexadecimal digits. -/
def codePoint (n : Nat) (s : List Char) : Option (Char × List Char) :=
  match (s.take n).mapM hexDigit? with
  | none => none
  | some digits =>
    let code := digits.foldl (fun a d => 16 * a + d) 0
    if digits.length = n ∧ (code < 0xd800 ∨ (0xe000 ≤ code ∧ code < 0x110000)) then
      some (Char.ofNat code, s.drop n)
    else none

/-- The character after a backslash. -/
def escape : List Char → Option (Char × List Char)
  | 'b' :: r => some ('\x08', r)
  | 'f' :: r => some ('\x0c', r)
  | 'n' :: r => some ('\n', r)
  | 'r' :: r => some ('\r', r)
  | 't' :: r => some ('\t', r)
  | '\\' :: r => some ('\\', r)
  | '"' :: r => some ('"', r)
  | 'u' :: r => codePoint 4 r
  | 'U' :: r => codePoint 8 r
  | _ => none

/-- A text in double quotes on one line, after its opening quote. -/
def basicFrom : Nat → List Char → List Char → Option (String × List Char)
  | _, _, [] => none
  | 0, _, _ :: _ => none
  | fuel + 1, taken, c :: r =>
    if c = '"' then some (.ofList taken.reverse, r)
    else if c = '\\' then
      match escape r with
      | none => none
      | some (d, r) => basicFrom fuel (d :: taken) r
    else if isShown c then basicFrom fuel (c :: taken) r
    else none

/-- A text in single quotes on one line, after its opening quote. -/
def literalFrom (taken : List Char) : List Char → Option (String × List Char)
  | [] => none
  | c :: r =>
    if c = '\'' then some (.ofList taken.reverse, r)
    else if isShown c then literalFrom (c :: taken) r
    else none

/-- Blanks and line ends after a backslash at the end of a line. -/
def skipFold : Nat → List Char → List Char
  | 0, s => s
  | fuel + 1, s =>
    match skipSpace s with
    | '\n' :: r => skipFold fuel r
    | '\r' :: '\n' :: r => skipFold fuel r
    | s => s

/-- A text of several lines after its opening quotes. Up to two quotes in a row belong to the
text, also right before the closing three; a line end is a line feed however it is written. -/
def linesFrom (quote : Char) (escapes : Bool) :
    Nat → List Char → List Char → Option (String × List Char)
  | _, _, [] => none
  | 0, _, _ :: _ => none
  | fuel + 1, taken, c :: r =>
    if c = quote then
      let run := (c :: r).takeWhile (· = quote)
      let rest := (c :: r).dropWhile (· = quote)
      if run.length < 3 then linesFrom quote escapes fuel (run ++ taken) rest
      else
        let kept := min (run.length - 3) 2
        some (.ofList ((List.replicate kept quote ++ taken).reverse), run.drop (kept + 3) ++ rest)
    else if c = '\\' ∧ escapes then
      match newline? (skipSpace r) with
      | some r => linesFrom quote escapes fuel taken (skipFold r.length r)
      | none =>
        match escape r with
        | none => none
        | some (d, r) => linesFrom quote escapes fuel (d :: taken) r
    else if isShown c then linesFrom quote escapes fuel (c :: taken) r
    else
      match newline? (c :: r) with
      | none => none
      | some r => linesFrom quote escapes fuel ('\n' :: taken) r

/-- Drops the line end right after the opening quotes. -/
def dropFirstBreak (s : List Char) : List Char := (newline? s).getD s

/-- A text of one line in either kind of quotes. -/
def lineText : List Char → Option (String × List Char)
  | '"' :: r => basicFrom r.length [] r
  | '\'' :: r => literalFrom [] r
  | _ => none

def text : List Char → Option (String × List Char)
  | '"' :: '"' :: '"' :: r => linesFrom '"' true r.length [] (dropFirstBreak r)
  | '\'' :: '\'' :: '\'' :: r => linesFrom '\'' false r.length [] (dropFirstBreak r)
  | s => lineText s

/-! ## Keys -/

def isBare (c : Char) : Bool :=
  ('A' ≤ c && c ≤ 'Z') || ('a' ≤ c && c ≤ 'z') || isDigit c || c = '-' || c = '_'

def simpleKey (s : List Char) : Option (String × List Char) :=
  match s with
  | '"' :: _ | '\'' :: _ => lineText s
  | _ =>
    match s.takeWhile isBare with
    | [] => none
    | k => some (.ofList k, s.dropWhile isBare)

/-- Keys with dots between them, blanks around each. -/
def dottedKey : Nat → List Char → Option (List String × List Char)
  | 0, _ => none
  | fuel + 1, s =>
    match simpleKey (skipSpace s) with
    | none => none
    | some (k, s) =>
      match skipSpace s with
      | '.' :: r =>
        match dottedKey fuel r with
        | none => none
        | some (ks, s) => some (k :: ks, s)
      | s => some ([k], s)

/-- The most tables a key or a value may nest. -/
def maxDepth : Nat := 80

/-- A dotted key as the path to its table and its last part. -/
def key (s : List Char) : Option (List String × String × List Char) :=
  match dottedKey (s.length + 1) s with
  | none => none
  | some (ks, s) =>
    if maxDepth ≤ ks.length then none
    else
      match ks.getLast? with
      | none => none
      | some k => some (ks.dropLast, k, s)

/-! ## Numbers -/

/-- What follows a digit of a number: more digits, each after at most one underscore. -/
def digitTail (isDigit : Char → Bool) : List Char → Option (List Char × List Char)
  | [] => some ([], [])
  | ['_'] => none
  | '_' :: d :: r =>
    if isDigit d then (digitTail isDigit r).map (fun t => (d :: t.1, t.2)) else none
  | c :: r =>
    if isDigit c then (digitTail isDigit r).map (fun t => (c :: t.1, t.2)) else some ([], c :: r)

/-- Digits with single underscores between them. -/
def digitRun (isDigit : Char → Bool) : List Char → Option (List Char × List Char)
  | [] => none
  | c :: r =>
    if isDigit c then (digitTail isDigit r).map (fun t => (c :: t.1, t.2)) else none

def radixDigit (radix : Nat) (c : Char) : Bool :=
  match hexDigit? c with
  | none => false
  | some d => d < radix

/-- An integer after the mark of its base. -/
def radixInteger (radix : Nat) (s : List Char) : Option (Item × List Char) :=
  match digitRun (radixDigit radix) s with
  | none => none
  | some (ds, s) =>
    let n := ds.foldl (fun a c => radix * a + (hexDigit? c).getD 0) 0
    if n < Nat.pow 2 63 then some (.integer n, s) else none

/-- Whether `digits · 10 ^ exponent` rounds to infinity. -/
def isInfinite (digits : List Char) (exponent : Int) : Bool :=
  let n := digitsValue digits
  if n = 0 then false
  else
    let size := (Nat.toDigits 10 n).length + exponent
    if size < 300 then false
    else if 320 < size then true
    else if 0 ≤ exponent then Nat.pow 2 1024 - Nat.pow 2 970 ≤ n * Nat.pow 10 exponent.toNat
    else (Nat.pow 2 1024 - Nat.pow 2 970) * Nat.pow 10 (-exponent).toNat ≤ n

/-- The exponent of a float, with its sign. -/
def exponentPart (s : List Char) : Option (Int × List Char) :=
  let (negative, s) := match s with
    | '-' :: r => (true, r)
    | '+' :: r => (false, r)
    | s => (false, s)
  match digitRun isDigit s with
  | none => none
  | some (ds, s) =>
    let e : Int := digitsValue ds
    some (if negative then -e else e, s)

/-- A decimal number: an integer of 64 bits, or a float that is not above all finite ones. -/
def decimal (s : List Char) : Option (Item × List Char) :=
  let (negative, s) := match s with
    | '-' :: r => (true, r)
    | '+' :: r => (false, r)
    | s => (false, s)
  let float (digits : List Char) (exponent : Int) (s : List Char) : Option (Item × List Char) :=
    if !negative && isInfinite digits exponent then none else some (.float, s)
  let withExponent (digits : List Char) (shift : Nat) (s : List Char) :=
    match exponentPart s with
    | none => none
    | some (e, s) => float digits (e - shift) s
  let whole := match s with
    | '0' :: r => some (['0'], r)
    | s => digitRun isDigit s
  match whole with
  | none =>
    match s with
    | 'i' :: 'n' :: 'f' :: r => some (.float, r)
    | 'n' :: 'a' :: 'n' :: r => some (.float, r)
    | _ => none
  | some (ds, s) =>
    match s with
    | '.' :: r =>
      match digitRun isDigit r with
      | none => none
      | some (fs, s) =>
        match s with
        | 'e' :: r | 'E' :: r => withExponent (ds ++ fs) fs.length r
        | s => float (ds ++ fs) (-(fs.length : Int)) s
    | 'e' :: r | 'E' :: r => withExponent ds 0 r
    | s =>
      let n : Int := digitsValue ds
      let z := if negative then -n else n
      if -(Nat.pow 2 63 : Int) ≤ z ∧ z < Nat.pow 2 63 then some (.integer z, s) else none

/-! ## Moments -/

/-- Two digits of a value from `least` to `most`. -/
def twoDigits (least most : Nat) : List Char → Option (Nat × List Char)
  | a :: b :: r =>
    if isDigit a && isDigit b then
      let n := 10 * digitValue a + digitValue b
      if least ≤ n ∧ n ≤ most then some (n, r) else none
    else none
  | _ => none

def isLeapYear (y : Nat) : Bool := y % 4 = 0 && (y % 100 ≠ 0 || y % 400 = 0)

def daysInMonth (y m : Nat) : Nat :=
  if m = 2 then if isLeapYear y then 29 else 28
  else if m = 4 || m = 6 || m = 9 || m = 11 then 30
  else 31

/-- A date, after its year and the hyphen. -/
def dateAfterYear (y : Nat) (s : List Char) : Option (List Char) :=
  match twoDigits 1 12 s with
  | some (m, '-' :: r) =>
    match twoDigits 1 31 r with
    | none => none
    | some (d, r) => if d ≤ daysInMonth y m then some r else none
  | _ => none

/-- A time of day with seconds and perhaps a fraction of them. -/
def timeOfDay (s : List Char) : Option (List Char) :=
  match twoDigits 0 23 s with
  | some (_, ':' :: r) =>
    match twoDigits 0 59 r with
    | some (_, ':' :: r) =>
      match twoDigits 0 60 r with
      | none => none
      | some (_, '.' :: r) =>
        match r.takeWhile isDigit with
        | [] => some ('.' :: r)
        | _ => some (r.dropWhile isDigit)
      | some (_, r) => some r
    | _ => none
  | _ => none

/-- The offset of a time from the universal one, if it is given. -/
def offset (s : List Char) : Option (List Char) :=
  let hours (r : List Char) : Option (List Char) :=
    match twoDigits 0 23 r with
    | some (_, ':' :: r) => (twoDigits 0 59 r).map (·.2)
    | _ => none
  match s with
  | 'Z' :: r | 'z' :: r => some r
  | '+' :: r | '-' :: r => hours r
  | s => some s

/-- A date, a time, or a date with a time and perhaps an offset. -/
def moment (s : List Char) : Option (List Char) :=
  match s with
  | a :: b :: c :: d :: '-' :: r =>
    if [a, b, c, d].all isDigit then
      match dateAfterYear (digitsValue [a, b, c, d]) r with
      | none => none
      | some r =>
        let withTime (t : List Char) : Option (List Char) :=
          match timeOfDay t with
          | none => some r
          | some t => offset t
        match r with
        | 'T' :: t | 't' :: t | ' ' :: t => withTime t
        | r => some r
    else none
  | s => timeOfDay s

/-- Whether a number is one with the mark of a base, a moment, or a decimal number. -/
def numberOrMoment (s : List Char) : Option (Item × List Char) :=
  match s with
  | '0' :: 'x' :: r => radixInteger 16 r
  | '0' :: 'o' :: r => radixInteger 8 r
  | '0' :: 'b' :: r => radixInteger 2 r
  | s =>
    match moment s with
    | some r => some (.moment, r)
    | none => decimal s

end Toml
end TrustTrial
