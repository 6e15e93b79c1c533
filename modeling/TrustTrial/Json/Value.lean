/-!
# TrustTrial.Json.Value

JSON values. Whole numbers of up to 64 bits are numbers here; every other number is kept as it was
written, since nothing is ever computed from it. An object keeps its fields as they were written;
of fields with one name the last one counts.
-/

namespace TrustTrial
namespace Json

inductive Value where
  | null
  | boolean (b : Bool)
  | natural (n : Nat)
  | decimal (written : String)
  | text (s : String)
  | list (items : List Value)
  | object (fields : List (String × Value))

instance : Inhabited Value := ⟨.null⟩

/-- Why a text was not accepted: `wrongShape` is JSON of another form than the wanted one,
`malformed` is no JSON (or JSON beyond the limits), `ended` is the beginning of JSON. -/
inductive Fault where
  | wrongShape
  | malformed
  | ended
  deriving DecidableEq, Repr

def Fault.message : Fault → String
  | .wrongShape => "unexpected shape of JSON"
  | .malformed => "malformed JSON"
  | .ended => "unexpected end of JSON"

/-- The last field of a name. -/
def lastField (name : String) : List (String × Value) → Option Value
  | [] => none
  | f :: fs =>
    match lastField name fs with
    | some v => some v
    | none => if f.1 = name then some f.2 else none

namespace Value

def field? (name : String) : Value → Option Value
  | .object fields => lastField name fields
  | _ => none

def text? : Value → Option String
  | .text s => some s
  | _ => none

def natural? : Value → Option Nat
  | .natural n => some n
  | _ => none

def list? : Value → Option (List Value)
  | .list items => some items
  | _ => none

def object? : Value → Option (List (String × Value))
  | .object fields => some fields
  | _ => none

end Value

end Json
end TrustTrial
