import TrustTrial.Json.Token

/-!
# TrustTrial.Json.Reader

Reading JSON text as a value of a wanted shape. The text is judged from left to right and the
first fault counts, so a value of the wrong shape is reported even if the text after it is not
JSON at all.

Records may be written as objects, with fields in any order and unknown ones among them, or as
lists of their fields in order. Values that are kept may nest up to `maxDepth` levels; values that
are skipped may nest as they like.
-/

namespace TrustTrial
namespace Json

inductive Shape where
  | anything
  | text
  | natural
  | listOf (item : Shape)
  | dictOf (item : Shape)
  | record (fields : List (String × Shape))
  | skipped

def maxDepth : Nat := 127

/-- The shape of a field of a record, if the record has one of that name. -/
def fieldShape (name : String) : List (String × Shape) → Option Shape
  | [] => none
  | f :: fs => if f.1 = name then some f.2 else fieldShape name fs

/-- The read fields in the order of the record; nothing if one is missing. -/
def inOrder (read : List (String × Value)) : List (String × Shape) →
    Option (List (String × Value))
  | [] => some []
  | f :: fs =>
    match lastField f.1 read, inOrder read fs with
    | some v, some rest => some ((f.1, v) :: rest)
    | _, _ => none

/-- A scalar read as a value of a shape. -/
def readScalar (shape : Shape) (value : Except Fault Value) : Except Fault Value :=
  match shape with
  | .skipped => .ok .null
  | shape =>
    match value with
    | .error fault => .error fault
    | .ok v =>
      match shape, v with
      | .anything, v => .ok v
      | .text, .text s => .ok (.text s)
      | .natural, .natural n => .ok (.natural n)
      | _, _ => .error .wrongShape

/-- The name of a field, and the tokens after its colon. In between, `allowed` may reject it. -/
def readName (skipping : Bool) (allowed : String → Bool) :
    List Token → Except Fault (String × List Token)
  | [] => .error .ended
  | .scalar true value :: rest =>
    let name : Except Fault String :=
      if skipping then .ok ""
      else
        match value with
        | .error fault => .error fault
        | .ok (.text s) => .ok s
        | .ok _ => .error .malformed
    match name with
    | .error fault => .error fault
    | .ok name =>
      if allowed name then
        match rest with
        | .colon :: rest => .ok (name, rest)
        | [] => .error .ended
        | _ :: _ => .error .malformed
      else .error .wrongShape
  | .broken true wanted skipped :: _ => .error (if skipping then skipped else wanted)
  | _ :: _ => .error .malformed

/-- Steps over the comma between two members of a list or object; `isClosing` tells what ends it. -/
def readComma (isClosing : Token → Bool) (first : Bool) :
    List Token → Except Fault (List Token)
  | [] => .error .ended
  | ts@(t :: rest) =>
    if first then .ok ts
    else
      match t with
      | .comma =>
        match rest with
        | [] => .error .ended
        | u :: _ => if isClosing u then .error .malformed else .ok rest
      | _ => .error .malformed

def isRightBracket : Token → Bool
  | .rightBracket => true
  | _ => false

def isRightBrace : Token → Bool
  | .rightBrace => true
  | _ => false

mutual

def readValue : Nat → Nat → Shape → List Token → Except Fault (Value × List Token)
  | 0, _, _, _ => .error .malformed
  | _ + 1, _, _, [] => .error .ended
  | fuel + 1, depth, shape, t :: rest =>
    match t with
    | .scalar _ value =>
      match readScalar shape value with
      | .error fault => .error fault
      | .ok v => .ok (v, rest)
    | .broken _ wanted skipped =>
      .error (match shape with
        | .skipped => skipped
        | _ => wanted)
    | .leftBracket =>
      match shape with
      | .skipped => readItems fuel depth .skipped true rest
      | .anything =>
        if depth = 0 then .error .malformed else readItems fuel (depth - 1) .anything true rest
      | .listOf item =>
        if depth = 0 then .error .malformed else readItems fuel (depth - 1) item true rest
      | .record fields =>
        if depth = 0 then .error .malformed else readSlots fuel (depth - 1) fields true rest
      | _ => .error .wrongShape
    | .leftBrace =>
      match shape with
      | .skipped => readEntries fuel depth .skipped true rest
      | .anything =>
        if depth = 0 then .error .malformed else readEntries fuel (depth - 1) .anything true rest
      | .dictOf item =>
        if depth = 0 then .error .malformed else readEntries fuel (depth - 1) item true rest
      | .record fields =>
        if depth = 0 then .error .malformed else readFields fuel (depth - 1) fields [] true rest
      | _ => .error .wrongShape
    | _ => .error .malformed

/-- The members of a list, all of one shape. -/
def readItems : Nat → Nat → Shape → Bool → List Token → Except Fault (Value × List Token)
  | 0, _, _, _, _ => .error .malformed
  | _ + 1, _, _, _, .rightBracket :: rest => .ok (.list [], rest)
  | fuel + 1, depth, shape, first, ts =>
    match readComma isRightBracket first ts with
    | .error fault => .error fault
    | .ok ts =>
      match readValue fuel depth shape ts with
      | .error fault => .error fault
      | .ok (v, ts) =>
        match readItems fuel depth shape false ts with
        | .error fault => .error fault
        | .ok (.list vs, ts) => .ok (.list (v :: vs), ts)
        | .ok (_, ts) => .ok (.list [v], ts)

/-- The members of an object, all of one shape. -/
def readEntries : Nat → Nat → Shape → Bool → List Token → Except Fault (Value × List Token)
  | 0, _, _, _, _ => .error .malformed
  | _ + 1, _, _, _, .rightBrace :: rest => .ok (.object [], rest)
  | fuel + 1, depth, shape, first, ts =>
    match readComma isRightBrace first ts with
    | .error fault => .error fault
    | .ok ts =>
      match readName (match shape with
          | .skipped => true
          | _ => false) (fun _ => true) ts with
      | .error fault => .error fault
      | .ok (name, ts) =>
        match readValue fuel depth shape ts with
        | .error fault => .error fault
        | .ok (v, ts) =>
          match readEntries fuel depth shape false ts with
          | .error fault => .error fault
          | .ok (.object vs, ts) => .ok (.object ((name, v) :: vs), ts)
          | .ok (_, ts) => .ok (.object [(name, v)], ts)

/-- The fields of a record written as an object; `read` holds those met so far. -/
def readFields : Nat → Nat → List (String × Shape) → List (String × Value) → Bool →
    List Token → Except Fault (Value × List Token)
  | 0, _, _, _, _, _ => .error .malformed
  | _ + 1, _, fields, read, _, .rightBrace :: rest =>
    match inOrder read fields with
    | none => .error .wrongShape
    | some fs => .ok (.object fs, rest)
  | fuel + 1, depth, fields, read, first, ts =>
    match readComma isRightBrace first ts with
    | .error fault => .error fault
    | .ok ts =>
      match readName false (fun name => (lastField name read).isNone) ts with
      | .error fault => .error fault
      | .ok (name, ts) =>
        match fieldShape name fields with
        | none =>
          match readValue fuel depth .skipped ts with
          | .error fault => .error fault
          | .ok (_, ts) => readFields fuel depth fields read false ts
        | some shape =>
          match readValue fuel depth shape ts with
          | .error fault => .error fault
          | .ok (v, ts) => readFields fuel depth fields ((name, v) :: read) false ts

/-- The fields of a record written as a list. -/
def readSlots : Nat → Nat → List (String × Shape) → Bool → List Token →
    Except Fault (Value × List Token)
  | 0, _, _, _, _ => .error .malformed
  | _ + 1, _, [], _, ts =>
    match ts with
    | .rightBracket :: rest => .ok (.object [], rest)
    | [] => .error .ended
    | _ :: _ => .error .malformed
  | _ + 1, _, _ :: _, _, .rightBracket :: _ => .error .wrongShape
  | fuel + 1, depth, f :: fields, first, ts =>
    match readComma isRightBracket first ts with
    | .error fault => .error fault
    | .ok ts =>
      match readValue fuel depth f.2 ts with
      | .error fault => .error fault
      | .ok (v, ts) =>
        match readSlots fuel depth fields false ts with
        | .error fault => .error fault
        | .ok (.object vs, ts) => .ok (.object ((f.1, v) :: vs), ts)
        | .ok (_, ts) => .ok (.object [(f.1, v)], ts)

end

/-- One value and nothing after it. -/
def readTokens (shape : Shape) (ts : List Token) : Except Fault Value :=
  match readValue (2 * ts.length + 2) maxDepth shape ts with
  | .error fault => .error fault
  | .ok (v, []) => .ok v
  | .ok (_, _ :: _) => .error .malformed

def read (shape : Shape) (text : String) : Except Fault Value :=
  readTokens shape (tokens text.toList)

end Json
end TrustTrial
