import TrustTrial.Json.Value
import TrustTrial.Text.Numeral

/-!
# TrustTrial.Json.Token

JSON text as tokens. Splitting never fails: a text that cannot be split to its end yields the
tokens before the trouble and one last token that says what is wrong there, so that a reader who
stops earlier never hears of it.

A scalar may be complete and yet have no value: a text with half a surrogate pair, or a number
beyond the range of binary floating point. That matters only to a reader who wants the value.
-/

namespace TrustTrial
namespace Json

open Text

inductive Token where
  | leftBracket
  | rightBracket
  | leftBrace
  | rightBrace
  | comma
  | colon
  | scalar (isText : Bool) (value : Except Fault Value)
  | broken (isText : Bool) (wanted skipped : Fault)

/-! ## Texts -/

/-- Where a text ends: after its closing quote (the characters are missing if a surrogate had no
partner), or inside the text. -/
inductive TextEnd where
  | closed (kept : Option (List Char)) (rest : List Char)
  | cut (wanted skipped : Fault)

def hexValue? (c : Char) : Option Nat :=
  if '0' ≤ c ∧ c ≤ '9' then some (c.toNat - '0'.toNat)
  else if 'a' ≤ c ∧ c ≤ 'f' then some (c.toNat - 'a'.toNat + 10)
  else if 'A' ≤ c ∧ c ≤ 'F' then some (c.toNat - 'A'.toNat + 10)
  else none

/-- Whether the characters take at least `n` bytes. -/
def fillsBytes (n : Nat) : List Char → Bool
  | [] => n = 0
  | c :: s => fillsBytes (n - c.utf8Size) s

/-- The four hexadecimal digits at the head of a text. -/
def hexUnit (s : List Char) : Except Fault Nat :=
  if fillsBytes 4 s then
    match s.take 4 |>.mapM hexValue? with
    | some [a, b, c, d] => .ok (((a * 16 + b) * 16 + c) * 16 + d)
    | _ => .error .malformed
  else .error .ended

def isLeading (n : Nat) : Bool := 0xd800 ≤ n && n ≤ 0xdbff

def isTrailing (n : Nat) : Bool := 0xdc00 ≤ n && n ≤ 0xdfff

/-- The character after a backslash that stands for one character. -/
def shortEscape? (c : Char) : Option Char :=
  if c = '"' then some '"'
  else if c = '\\' then some '\\'
  else if c = '/' then some '/'
  else if c = 'b' then some '\x08'
  else if c = 'f' then some '\x0c'
  else if c = 'n' then some '\n'
  else if c = 'r' then some '\r'
  else if c = 't' then some '\t'
  else none

def cutText (kept : Option (List Char)) (fault : Fault) : TextEnd :=
  .cut (if kept.isSome then fault else .malformed) fault

/-- The rest of a text after its opening quote; `kept` holds the characters so far, last first. -/
def textFrom : Nat → Option (List Char) → List Char → TextEnd
  | _, kept, [] => cutText kept .ended
  | 0, kept, _ :: _ => cutText kept .ended
  | fuel + 1, kept, c :: r =>
    if c = '"' then .closed (kept.map List.reverse) r
    else if c = '\\' then
      match r with
      | [] => cutText kept .ended
      | 'u' :: r =>
        match hexUnit r with
        | .error fault => cutText kept fault
        | .ok n =>
          if isLeading n then
            match r.drop 4 with
            | [] => cutText kept .ended
            | ['\\'] => cutText kept .ended
            | '\\' :: 'u' :: t =>
              match hexUnit t with
              | .error fault => cutText kept fault
              | .ok m =>
                if isTrailing m then
                  let code := 0x10000 + (n - 0xd800) * 0x400 + (m - 0xdc00)
                  textFrom fuel (kept.map (Char.ofNat code :: ·)) (t.drop 4)
                else textFrom fuel none (t.drop 4)
            | t => textFrom fuel none t
          else if isTrailing n then textFrom fuel none (r.drop 4)
          else textFrom fuel (kept.map (Char.ofNat n :: ·)) (r.drop 4)
      | e :: r =>
        match shortEscape? e with
        | some d => textFrom fuel (kept.map (d :: ·)) r
        | none => cutText kept .malformed
    else if c.toNat < 0x20 then cutText kept .malformed
    else textFrom fuel (kept.map (c :: ·)) r

/-! ## Numbers -/

/-- The nearest number with at most 53 significant bits; a tie goes to the even one. -/
def roundSignificant (n : Nat) : Nat :=
  let bits := if n = 0 then 0 else Nat.log2 n + 1
  if bits ≤ 53 then n
  else
    let unit := Nat.pow 2 (bits - 53)
    let q := n / unit
    let r := n % unit
    if 2 * r > unit ∨ (2 * r = unit ∧ q % 2 = 1) then (q + 1) * unit else q * unit

/-- Whether `significand · 10 ^ exponent`, computed with 53 significant bits, has no finite value
in binary floating point. -/
def exceedsFloat (significand : Nat) (exponent : Int) : Bool :=
  if significand = 0 ∨ exponent < 0 then false
  else if 308 < exponent then true
  else
    let scale := roundSignificant (Nat.pow 10 exponent.toNat)
    Nat.pow 2 1024 ≤ roundSignificant (roundSignificant significand * scale)

/-- Takes digits into a significand of 64 bits: the significand, how many digits it took and how
many it did not. -/
def significandOf : Nat → List Char → Nat × Nat × Nat
  | n, [] => (n, 0, 0)
  | n, c :: s =>
    let m := 10 * n + digitValue c
    if m ≤ maxWord then
      let (k, taken, left) := significandOf m s
      (k, taken + 1, left)
    else (n, 0, s.length + 1)

/-- A number in its parts: sign, digits before and after the point, sign and digits of the
exponent. -/
structure NumberParts where
  negative : Bool
  whole : List Char
  fraction : Option (List Char)
  exponent : Option (Bool × List Char)

def NumberParts.written (p : NumberParts) (exponentSign : List Char) : List Char :=
  (if p.negative then ['-'] else []) ++ p.whole ++
    (match p.fraction with
    | none => []
    | some f => '.' :: f) ++
    (match p.exponent with
    | none => []
    | some (_, e) => 'e' :: exponentSign ++ e)

/-- A number in parts is out of range when its size is; an exponent of more than 31 bits decides
by its sign alone. -/
def NumberParts.exceeds (p : NumberParts) : Bool :=
  let (n, _, dropped) := significandOf 0 p.whole
  let (n, taken, _) := significandOf n (p.fraction.getD [])
  let base : Int := (dropped : Int) - taken
  match p.exponent with
  | none => exceedsFloat n base
  | some (negative, digits) =>
    let e := digitsValue digits
    if Nat.pow 2 31 ≤ e then n ≠ 0 && !negative
    else exceedsFloat n (if negative then base - e else base + e)

def NumberParts.value (p : NumberParts) (sign : List Char) : Except Fault Value :=
  let n := digitsValue p.whole
  if !p.negative && p.fraction.isNone && p.exponent.isNone && n ≤ maxWord then .ok (.natural n)
  else if p.exceeds then .error .malformed
  else .ok (.decimal (.ofList (p.written sign)))

/-- A number that begins with the given characters, and what follows it. -/
def number (s : List Char) : Token × List Char :=
  let stop (wanted : Fault) : Token × List Char := (.broken false wanted .malformed, [])
  let (negative, s) := match s with
    | '-' :: r => (true, r)
    | s => (false, s)
  let whole := s.takeWhile isDigit
  let s := s.dropWhile isDigit
  match whole, s with
  | [], [] => stop .ended
  | [], _ :: _ => stop .malformed
  | '0' :: _ :: _, _ => stop .malformed
  | _, _ =>
    let withExponent (fraction : Option (List Char)) (s : List Char) : Token × List Char :=
      let finish (exponent : Option (Bool × List Char)) (sign s : List Char) :=
        let parts : NumberParts := ⟨negative, whole, fraction, exponent⟩
        (Token.scalar false (parts.value sign), s)
      match s with
      | c :: r =>
        if c = 'e' ∨ c = 'E' then
          let (sign, r) := match r with
            | '+' :: t => (['+'], t)
            | '-' :: t => (['-'], t)
            | t => ([], t)
          match r with
          | [] => stop .ended
          | _ :: _ =>
            match r.takeWhile isDigit with
            | [] => stop .malformed
            | digits => finish (some (sign = ['-'], digits)) sign (r.dropWhile isDigit)
        else finish none [] s
      | [] => finish none [] s
    match s with
    | '.' :: r =>
      match r.takeWhile isDigit, r with
      | [], [] => stop .ended
      | [], _ :: _ => stop .malformed
      | fraction, _ => withExponent (some fraction) (r.dropWhile isDigit)
    | s => withExponent none s

/-! ## Tokens -/

/-- A word such as `null`, of which the first letter has been read. -/
def word (value : Value) : List Char → List Char → Token × List Char
  | [], s => (.scalar false (.ok value), s)
  | _ :: _, [] => (.broken false .ended .ended, [])
  | w :: ws, c :: s =>
    if w = c then word value ws s else (.broken false .malformed .malformed, [])

def isSpace (c : Char) : Bool := c = ' ' || c = '\n' || c = '\t' || c = '\r'

/-- The token that begins with `c`, and what follows it. -/
def tokenAt (c : Char) (r : List Char) : Token × List Char :=
  if c = '[' then (.leftBracket, r)
  else if c = ']' then (.rightBracket, r)
  else if c = '\x7b' then (.leftBrace, r)
  else if c = '\x7d' then (.rightBrace, r)
  else if c = ',' then (.comma, r)
  else if c = ':' then (.colon, r)
  else if c = '"' then
    match textFrom r.length (some []) r with
    | .closed (some s) rest => (.scalar true (.ok (.text (.ofList s))), rest)
    | .closed none rest => (.scalar true (.error .malformed), rest)
    | .cut wanted skipped => (.broken true wanted skipped, [])
  else if c = 'n' then word .null ['u', 'l', 'l'] r
  else if c = 't' then word (.boolean true) ['r', 'u', 'e'] r
  else if c = 'f' then word (.boolean false) ['a', 'l', 's', 'e'] r
  else if c = '-' || isDigit c then number (c :: r)
  else (.broken false .malformed .malformed, [])

def tokensFrom : Nat → List Char → List Token
  | _, [] => []
  | 0, _ :: _ => []
  | fuel + 1, c :: r =>
    if isSpace c then tokensFrom fuel r
    else (tokenAt c r).1 :: tokensFrom fuel (tokenAt c r).2

/-- The tokens of a text; every token takes at least one character. -/
def tokens (s : List Char) : List Token := tokensFrom s.length s

end Json
end TrustTrial
