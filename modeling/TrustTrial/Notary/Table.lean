import TrustTrial.Notary.Record

/-!
# TrustTrial.Notary.Table

The tables that the notary prints. Columns are padded to fixed widths and never cut, with a blank
between them.
-/

namespace TrustTrial
namespace Notary

open Text

def lines (rows : List String) : String := String.join (rows.map (fun row => row ++ "\n"))

/-! ## Targets -/

def targetRow (name digest size role : String) : String :=
  padded 34 name ++ " " ++ padded 18 digest ++ " " ++ padded 14 size ++ " " ++ role

def targetHeader : List String := [
  targetRow "NAME" "DIGEST" "SIZE (BYTES)" "ROLE",
  targetRow "----" "------" "------------" "----"]

/-- One row for each target; all of them are signed by the targets role. -/
def targetRows (targets : Dict Target) : List String :=
  targets.toList.map (fun e => targetRow e.1 e.2.digest (toString e.2.size) "targets")

/-! ## Keys -/

def keyRow (role gun id location : String) : String :=
  padded 10 role ++ " " ++ padded 34 gun ++ " " ++ padded 34 id ++ " " ++ location

def keyHeader : List String := [
  "",
  keyRow "ROLE" "GUN" "KEY ID" "LOCATION",
  keyRow "----" "---" "------" "--------"]

/-- One row for each key, which lies in the given directory. -/
def keyRows (directory : String) (keys : List LocalKey) : List String :=
  keys.map (fun k => keyRow k.role k.gun k.id ("file (" ++ directory ++ ")"))

end Notary
end TrustTrial
