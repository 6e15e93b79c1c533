import TrustTrial.RootDocument

/-!
# TrustTrial.Rotation

The rule for a rotation of the root key, told from the root documents before and after it: the key
set grows by exactly one, one root key stays trusted, and it is one that was never trusted before.
-/

namespace TrustTrial

/-- What a root document says about the root of trust. -/
structure RootState where
  keyCount : Nat
  rootKey : String
  deriving DecidableEq, Repr

namespace RootState

/-- Needs exactly one trusted root key. -/
def capture (d : RootDocument) : Except Failure RootState :=
  match d.singleRootKey with
  | .error failure => .error failure
  | .ok key => .ok ⟨d.keyCount, key⟩

/-- Checks the document after one rotation against the state before it and the root keys trusted
earlier; the new state if all is well. -/
def rotated (before : RootState) (after : RootDocument) (trusted : List String) :
    Except Failure RootState :=
  if after.keyCount ≠ before.keyCount + 1 then
    .error (.violated (.keyCount (before.keyCount + 1) after.keyCount))
  else
    match capture after with
    | .error failure => .error failure
    | .ok state =>
      if state.rootKey = before.rootKey then
        .error (.violated (.sameRootKey state.rootKey))
      else if trusted.contains state.rootKey then
        .error (.violated (.reusedRootKey state.rootKey))
      else .ok state

end RootState

/-- What has been seen of the root of trust so far: all root keys that were trusted, and all root
rows of the primary client's key table. -/
structure RootHistory where
  keys : List String
  rows : List String
  deriving DecidableEq, Repr

namespace RootHistory

def empty : RootHistory := ⟨[], []⟩

def addKey (h : RootHistory) (key : String) : RootHistory := { h with keys := key :: h.keys }

def addRows (h : RootHistory) (rows : List String) : RootHistory :=
  { h with rows := rows ++ h.rows }

end RootHistory
end TrustTrial
