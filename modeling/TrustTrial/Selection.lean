import TrustTrial.Failure

/-!
# TrustTrial.Selection

Which scenarios to run, from names in any order and any number.
-/

namespace TrustTrial
namespace Scenario

/-- The first name that no scenario has. -/
def firstUnknown? (names : List String) : Option String :=
  names.find? (fun name => (named? name).isNone)

/-- The scenarios of the given names in their declared order, all of them if no name is given. -/
def select (names : List String) : Except Failure (List Scenario) :=
  if names.isEmpty then .ok all
  else
    match firstUnknown? names with
    | some name => .error (.unknownScenario name)
    | none => .ok (all.filter (fun s => names.contains s.name))

end Scenario
end TrustTrial
