import TrustTrial.Toml.Scalar

/-!
# TrustTrial.Toml.Document

Reading a TOML document. Every line is a key with a value, the header of a table, or blank; a value
may span lines inside brackets and long quotes.
-/

namespace TrustTrial
namespace Toml

mutual

/-- A value; `depth` more levels of arrays and inline tables may open. -/
def value : Nat → Nat → List Char → Option (Item × List Char)
  | 0, _, _ => none
  | _ + 1, _, [] => none
  | fuel + 1, depth, c :: r =>
    if c = '"' ∨ c = '\'' then
      match text (c :: r) with
      | none => none
      | some (s, r) => some (.text s, r)
    else if c = '[' then
      match depth with
      | 0 => none
      | depth + 1 =>
        match skipBreaks r.length r with
        | none => none
        | some (']' :: r) => some (.array [], r)
        | some r =>
          match arrayItems fuel depth r with
          | none => none
          | some (items, r) => some (.array items, r)
    else if c = '\x7b' then
      match depth with
      | 0 => none
      | depth + 1 =>
        match skipSpace r with
        | '\x7d' :: r => some (.inline [], r)
        | r =>
          match inlineEntries fuel depth [] r with
          | none => none
          | some (es, r) => some (.inline es, r)
    else
      match c :: r with
      | 't' :: 'r' :: 'u' :: 'e' :: r => some (.boolean, r)
      | 'f' :: 'a' :: 'l' :: 's' :: 'e' :: r => some (.boolean, r)
      | s => numberOrMoment s

/-- The items of an array, of which there is at least one; the last may be followed by a comma. -/
def arrayItems : Nat → Nat → List Char → Option (List Item × List Char)
  | 0, _, _ => none
  | fuel + 1, depth, s =>
    match value fuel depth s with
    | none => none
    | some (item, s) =>
      match skipBreaks s.length s with
      | some (']' :: r) => some ([item], r)
      | some (',' :: r) =>
        match skipBreaks r.length r with
        | none => none
        | some (']' :: r) => some ([item], r)
        | some r =>
          match arrayItems fuel depth r with
          | none => none
          | some (items, r) => some (item :: items, r)
      | _ => none

/-- The entries of an inline table, of which there is at least one. -/
def inlineEntries : Nat → Nat → Entries → List Char → Option (Entries × List Char)
  | 0, _, _, _ => none
  | fuel + 1, depth, es, s =>
    match key s with
    | some (path, k, '=' :: r) =>
      match value fuel depth (skipSpace r) with
      | none => none
      | some (item, r) =>
        match addEntry path k item .header es with
        | none => none
        | some es =>
          match skipSpace r with
          | '\x7d' :: r => some (es, r)
          | ',' :: r => inlineEntries fuel depth es r
          | _ => none
    | _ => none

end

/-- One line that is not blank. -/
def line (d : Draft) (s : List Char) : Option (Draft × List Char) :=
  let close (d : Option Draft) (s : List Char) : Option (Draft × List Char) :=
    match d, lineEnd? s with
    | some d, some r => some (d, r)
    | _, _ => none
  match s with
  | '[' :: '[' :: r =>
    match key r with
    | some (path, k, ']' :: ']' :: r) => close (d.openRow path k) r
    | _ => none
  | '[' :: r =>
    match key r with
    | some (path, k, ']' :: r) => close (d.openTable path k) r
    | _ => none
  | s =>
    match key s with
    | some (path, k, '=' :: r) =>
      match value (2 * r.length + 2) maxDepth (skipSpace r) with
      | none => none
      | some (item, r) => close (d.addEntry path k item) r
    | _ => none

def linesOf : Nat → Draft → List Char → Option Draft
  | 0, d, s => if s.isEmpty then some d else none
  | fuel + 1, d, s =>
    match skipSpace s with
    | [] => some d
    | '#' :: r =>
      match lineEnd? ('#' :: r) with
      | none => none
      | some r => linesOf fuel d r
    | '\n' :: r => linesOf fuel d r
    | '\r' :: r =>
      match r with
      | '\n' :: r => linesOf fuel d r
      | _ => none
    | s =>
      match line d s with
      | none => none
      | some (d, r) => linesOf fuel d r

/-- The entries of a document; a byte order mark may precede them. -/
def read (s : String) : Option Entries :=
  let chars := match s.toList with
    | '\ufeff' :: r => r
    | s => s
  match linesOf (chars.length + 1) .start chars with
  | none => none
  | some d => d.finish

end Toml
end TrustTrial
