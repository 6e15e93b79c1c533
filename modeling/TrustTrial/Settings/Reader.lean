import TrustTrial.Failure
import TrustTrial.Settings
import TrustTrial.Toml.Document

/-!
# TrustTrial.Settings.Reader

Settings from the text of a file. A section is a table with the settings by name, or an array with
the settings in order; what is not given keeps its default, and what is not known is passed over.
-/

namespace TrustTrial
namespace Settings

open Toml

/-- The items of an array for the names they stand for, in order. -/
def inOrder : List String → List Item → List (Option Item)
  | [], _ => []
  | _ :: names, [] => none :: inOrder names []
  | _ :: names, item :: items => some item :: inOrder names items

/-- What a section gives for each of the names. A moment counts as a section that gives nothing. -/
def sectionItems (names : List String) : Option Item → Option (List (Option Item))
  | none => some (names.map (fun _ => none))
  | some (.table _ es) => some (names.map (fun name => find? name es))
  | some (.inline es) => some (names.map (fun name => find? name es))
  | some (.array items) => some (inOrder names items)
  | some (.tables rows) => some (inOrder names (rows.map .inline))
  | some .moment => some (names.map (fun _ => none))
  | some _ => none

def textOr (fallback : String) : Option Item → Option String
  | none => some fallback
  | some (.text s) => some s
  | some _ => none

def naturalOr (most fallback : Nat) : Option Item → Option Nat
  | none => some fallback
  | some (.integer z) => if 0 ≤ z ∧ z ≤ most then some z.toNat else none
  | some _ => none

/-! ## Sections -/

def clientOf (item : Option Item) : Option ClientSettings :=
  let d := ClientSettings.default
  match sectionItems ["binary", "local_config"] item with
  | some [binary, localConfig] =>
    match textOr d.binary binary, textOr d.localConfig localConfig with
    | some binary, some localConfig => some ⟨binary, localConfig⟩
    | _, _ => none
  | _ => none

def passphrasesOf (item : Option Item) : Option Passphrases :=
  let d := Passphrases.default
  match sectionItems ["root", "targets", "snapshot", "delegation"] item with
  | some [root, targets, snapshot, delegation] =>
    match textOr d.root root, textOr d.targets targets, textOr d.snapshot snapshot,
      textOr d.delegation delegation with
    | some root, some targets, some snapshot, some delegation =>
      some ⟨root, targets, snapshot, delegation⟩
    | _, _, _, _ => none
  | _ => none

/-- The largest number of seconds that can be set. -/
def mostSeconds : Nat := Nat.pow 2 64 - 1

/-- The largest number of successes that can be required. -/
def mostSuccesses : Nat := Nat.pow 2 32 - 1

def readinessOf (item : Option Item) : Option ReadinessSettings :=
  let d := ReadinessSettings.default
  match sectionItems ["default_server", "health_path", "timeout_secs", "retry_interval_secs",
    "grace_period_secs", "required_successes"] item with
  | some [server, path, timeout, retry, grace, required] =>
    match textOr d.defaultServer server, textOr d.healthPath path,
      naturalOr mostSeconds d.timeout timeout, naturalOr mostSeconds d.retryInterval retry,
      naturalOr mostSeconds d.gracePeriod grace,
      naturalOr mostSuccesses d.requiredSuccesses required with
    | some server, some path, some timeout, some retry, some grace, some required =>
      some ⟨server, path, timeout, retry, grace, required⟩
    | _, _, _, _, _, _ => none
  | _ => none

/-- Settings from the entries of a document. -/
def ofEntries? (es : Entries) : Option Settings :=
  match clientOf (find? "client" es), passphrasesOf (find? "passphrases" es),
    readinessOf (find? "readiness" es) with
  | some client, some passphrases, some readiness => some ⟨client, passphrases, readiness⟩
  | _, _, _ => none

/-- Settings from the text of a file; at least one success has to be required. -/
def read (text : String) : Except Failure Settings :=
  match Toml.read text with
  | none => .error (.settings .unfitting)
  | some es =>
    match ofEntries? es with
    | none => .error (.settings .unfitting)
    | some settings =>
      if settings.readiness.requiredSuccesses = 0 then .error (.settings .noSuccesses)
      else .ok settings

theorem requiredSuccesses_pos {text : String} {settings : Settings}
    (h : read text = .ok settings) : 0 < settings.readiness.requiredSuccesses := by
  simp only [read] at h
  split at h
  · cases h
  · split at h
    · cases h
    · split at h
      · cases h
      · rename_i hne
        cases h
        exact Nat.pos_of_ne_zero hne

end Settings
end TrustTrial
