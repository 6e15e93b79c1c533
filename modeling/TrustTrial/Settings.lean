import TrustTrial.Dict

/-!
# TrustTrial.Settings

What a trial can be told by its settings file: how the client is called, the passphrases of the
signing roles, and how long to wait for the server.
-/

namespace TrustTrial

/-- How the client is called. `localConfig` is the file that the client gets when no remote server
is chosen. -/
structure ClientSettings where
  binary : String
  localConfig : String
  deriving DecidableEq, Repr

/-- The passphrases of the four signing roles. -/
structure Passphrases where
  root : String
  targets : String
  snapshot : String
  delegation : String
  deriving DecidableEq, Repr

/-- Times are in seconds. `defaultServer` is the server that means no remote one. -/
structure ReadinessSettings where
  defaultServer : String
  healthPath : String
  timeout : Nat
  retryInterval : Nat
  gracePeriod : Nat
  requiredSuccesses : Nat
  deriving DecidableEq, Repr

structure Settings where
  client : ClientSettings
  passphrases : Passphrases
  readiness : ReadinessSettings
  deriving DecidableEq, Repr

def ClientSettings.default : ClientSettings := ⟨"notary", "config.json"⟩

def Passphrases.default : Passphrases :=
  ⟨"root_ponies", "targets_ponies", "snapshot_ponies", "user_ponies"⟩

def ReadinessSettings.default : ReadinessSettings :=
  ⟨"http://server:4443", "/_notary_server/health", 240, 11, 30, 2⟩

def Settings.default : Settings := ⟨.default, .default, .default⟩

/-- The environment variables for the passphrases, in the order of the roles. -/
def Passphrases.assignments (p : Passphrases) : List (String × String) := [
  ("NOTARY_ROOT_PASSPHRASE", p.root),
  ("NOTARY_TARGETS_PASSPHRASE", p.targets),
  ("NOTARY_SNAPSHOT_PASSPHRASE", p.snapshot),
  ("NOTARY_DELEGATION_PASSPHRASE", p.delegation)]

end TrustTrial
