/-!
# TrustTrial.Scenario

The scenarios of a trial. Later ones build on what earlier ones leave behind, so they have a
declared order.
-/

namespace TrustTrial

/-- A course of calls with its checks. `basicRepo` publishes a target and reads it back from a
second client, `rootRotation` rotates the snapshot key and then the root key and keeps
publishing, `rootRerotation` rotates the root key a further time. -/
inductive Scenario where
  | basicRepo
  | rootRotation
  | rootRerotation
  deriving DecidableEq, Repr

namespace Scenario

def all : List Scenario := [.basicRepo, .rootRotation, .rootRerotation]

def name : Scenario → String
  | .basicRepo => "basic_repo_test"
  | .rootRotation => "root_rotation_test"
  | .rootRerotation => "root_rerotation_test"

def description : Scenario → String
  | .basicRepo => "Initialize a repo, add a target, ensure the target is readable"
  | .rootRotation => "Rotate snapshot and root keys, then publish from both clients"
  | .rootRerotation => "Rotate root again and check the key set keeps growing"

def named? (name : String) : Option Scenario := all.find? (fun s => s.name = name)

theorem name_injective {s t : Scenario} (h : s.name = t.name) : s = t := by
  cases s <;> cases t <;> first | rfl | exact absurd h (by decide)

@[simp] theorem named?_name (s : Scenario) : named? s.name = some s := by
  cases s <;> decide

end Scenario

/-! ## Stages -/

/-- How far a scenario that rotates the root key has come. -/
inductive Stage where
  | start
  | keysEnumerated
  | rootRotationRequested
  | rootRotationConfirmed
  | metadataReloaded
  | verified
  | continuation
  deriving DecidableEq, Repr

namespace Stage

def all : List Stage := [
  .start, .keysEnumerated, .rootRotationRequested, .rootRotationConfirmed, .metadataReloaded,
  .verified, .continuation]

def name : Stage → String
  | .start => "start"
  | .keysEnumerated => "keys-enumerated"
  | .rootRotationRequested => "root-rotation-requested"
  | .rootRotationConfirmed => "root-rotation-confirmed"
  | .metadataReloaded => "metadata-reloaded"
  | .verified => "verified"
  | .continuation => "continuation"

end Stage
end TrustTrial
