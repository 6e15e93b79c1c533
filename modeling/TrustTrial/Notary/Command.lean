import TrustTrial.Machine
import TrustTrial.Notary.Store
import TrustTrial.Notary.Table

/-!
# TrustTrial.Notary.Command

The commands of the notary. Those that talk to the server log in first; a root rotation has to be
confirmed before that. Everything that can be refused is refused before the first file is written,
unless it is the writing that fails.
-/

namespace TrustTrial
namespace Notary

open Disk

/-- Where a run takes place, its environment, and the ids for the keys it makes. -/
structure Office where
  here : Location
  environment : Dict String
  keyName : Nat → String

def requirePassphrase (o : Office) (name : String) : Step Unit :=
  match o.environment.get? name with
  | none => throw (.passphraseUnset name)
  | some value => if value.isEmpty then throw (.passphraseUnset name) else pure ()

/-! ## Changing records -/

/-- Whether there is a next version. Where numbers of 64 bits wrap around unchecked, the version
after the last one would be zero; here such an addition stops the run. -/
def countOn (r : Record) : Step Unit :=
  if r.version < Text.maxWord then pure () else throw .exhausted

/-- The id of a new key. -/
def newKey (o : Office) : Step String := fun d =>
  (.ok (o.keyName d.made), { d with made := d.made + 1 })

namespace Record

/-- Makes a key the only trusted one of its role. -/
def trust (r : Record) (role id : String) : Record :=
  { r with keys := r.keys.insert id role, roles := r.roles.insert role [id] }

/-- Forgets the keys that are trusted for a role. -/
def dropKeys (r : Record) (role : String) : Record :=
  { r with keys := ((r.roles.get? role).getD []).foldl Dict.erase r.keys }

def bump (r : Record) : Record := { r with version := r.version + 1 }

/-- Staged additions take effect in order. -/
def publish (r : Record) (staged : List Staged) : Record :=
  { r with targets := staged.foldl (fun d s => d.insert s.name s.target) r.targets }

end Record

/-- The repository that a local key of a role belongs to. -/
def gunOf (role repo : String) : String := if role = "root" then "" else repo

/-! ## Commands -/

/-- Makes a key for each of the roles; the server keeps the timestamp key to itself. -/
def makeKeys (o : Office) (repo : String) :
    List String → Record → List LocalKey → Step (Record × List LocalKey)
  | [], r, keys => pure (r, keys)
  | role :: roles, r, keys => do
    let id ← newKey o
    let keys := if role = "timestamp" then keys else keys ++ [⟨role, gunOf role repo, id⟩]
    makeKeys o repo roles (r.trust role id) keys

def firstRoles : List String := ["root", "targets", "snapshot", "timestamp"]

def init (o : Office) (server trustDir repo : String) : Step Unit := do
  requirePassphrase o "NOTARY_ROOT_PASSPHRASE"
  requirePassphrase o "NOTARY_TARGETS_PASSPHRASE"
  requirePassphrase o "NOTARY_SNAPSHOT_PASSPHRASE"
  if ← present o.here (recordPath server repo) then throw (.repoExists repo)
  let keys ← loadKeys o.here trustDir
  let (r, keys) ← makeKeys o repo firstRoles .empty keys
  let r := r.bump
  saveRecord o.here server repo r
  saveKeys o.here trustDir keys
  sync o.here trustDir repo r
  say ("Root key found, using: " ++ ((r.roles.get? "root").getD []).headD "")

def add (o : Office) (trustDir repo name file : String) : Step Unit := do
  let data ← readBytes o.here file
  let staged ← loadStaged o.here trustDir repo
  saveStaged o.here trustDir repo (staged ++ [⟨name, .ofContent data⟩])
  say ("Addition of target \"" ++ name ++ "\" to repository \"" ++ repo ++
    "\" staged for next publish.")

def publish (o : Office) (server trustDir repo : String) : Step Unit := do
  let r ← loadRecord o.here server repo
  let staged ← loadStaged o.here trustDir repo
  if staged.isEmpty then
    say ("No unpublished changes for " ++ repo)
    sync o.here trustDir repo r
  else
    countOn r
    let r := (r.publish staged).bump
    saveRecord o.here server repo r
    removeFile o.here (stagedPath trustDir repo)
    say ("Successfully published changes for repository " ++ repo)
    sync o.here trustDir repo r

def list (o : Office) (server trustDir repo : String) : Step Unit := do
  let r ← loadRecord o.here server repo
  sync o.here trustDir repo r
  print (lines targetHeader)
  let stale ← look (fun disk => .ok (isStale disk o.here server trustDir))
  if stale then pure () else print (lines (targetRows r.targets))

def verify (o : Office) (server repo name file : String) : Step Unit := do
  let r ← loadRecord o.here server repo
  match r.targets.get? name with
  | none => throw (.targetMissing name repo)
  | some target =>
    let data ← readBytes o.here file
    if Target.ofContent data = target then pure () else throw (.otherContent name)

def listKeys (o : Office) (trustDir : String) : Step Unit := do
  let keys ← loadKeys o.here trustDir
  print (lines keyHeader)
  print (lines (keyRows (privateDir trustDir) keys))

/-- Old root keys stay known, so that metadata signed by them can still be checked. -/
def rotateRoot (o : Office) (server trustDir repo : String) : Step Unit := do
  let r ← loadRecord o.here server repo
  let keys ← loadKeys o.here trustDir
  requirePassphrase o "NOTARY_ROOT_PASSPHRASE"
  countOn r
  let id ← newKey o
  let r := (r.trust "root" id).bump
  saveRecord o.here server repo r
  saveKeys o.here trustDir (keys ++ [⟨"root", gunOf "root" repo, id⟩])
  sync o.here trustDir repo r

/-- The old keys of another role are forgotten. A key that the server manages is not kept by the
client. -/
def rotateOther (o : Office) (server trustDir repo role : String) (managed : Bool) :
    Step Unit := do
  let r ← loadRecord o.here server repo
  let keys ← loadKeys o.here trustDir
  countOn r
  let id ← newKey o
  let r := ((r.dropKeys role).trust role id).bump
  let keys := keys.filter (fun k => !(k.role = role && k.gun = repo))
  saveRecord o.here server repo r
  saveKeys o.here trustDir (if managed then keys else keys ++ [⟨role, repo, id⟩])
  sync o.here trustDir repo r

def rotate (o : Office) (server trustDir repo role : String) (flags : List String) :
    Step Unit := do
  if role = "root" then
    let answer ← readLine
    if Text.trim answer = "yes" then
      login o.here server
      rotateRoot o server trustDir repo
    else throw .unconfirmed
  else
    login o.here server
    rotateOther o server trustDir repo role (flags.contains "-r")
  say ("Successfully rotated " ++ role ++ " key for repository " ++ repo)

/-- The commands that work on a server and a trust directory. -/
def command (o : Office) (server trustDir : String) : List String → Step Unit
  | ["init", repo] => do
    login o.here server
    init o server trustDir repo
  | ["add", repo, name, file] => add o trustDir repo name file
  | ["publish", repo] => do
    login o.here server
    publish o server trustDir repo
  | ["list", repo] => do
    login o.here server
    list o server trustDir repo
  | ["verify", repo, name, "-i", file, "-q"] => verify o server repo name file
  | ["key", "list"] => listKeys o trustDir
  | "key" :: "rotate" :: repo :: role :: flags => rotate o server trustDir repo role flags
  | words => throw (.unknownCommand words)

/-! ## Plumbing -/

/-- All that is left of the input. -/
def readRest : Step (List UInt8) := fun d => (.ok d.input, { d with input := [] })

def printBytes (data : ByteArray) : Step Unit := fun d =>
  (.ok (), { d with output := d.output ++ data })

def leastExit : Int := -(Nat.pow 2 31 : Int)

def mostExit : Int := (Nat.pow 2 31 : Int) - 1

/-- Commands that show how the program is connected to its surroundings; the exit code. -/
def plumbing (o : Office) (f : Flags) : List String → Step Nat
  | ["stdin"] => do
    let input ← readRest
    printBytes ⟨input.toArray⟩
    pure 0
  | ["env", name] => do
    print ((o.environment.get? name).getD "")
    pure 0
  | ["globals"] => do
    say ("server=" ++ f.server.getD "-" ++ " local=" ++ toString f.embedded ++
      " config=" ++ f.config.getD "-" ++ " dir=" ++ f.trustDir.getD "-")
    pure 0
  | "exit" :: code :: text => do
    print (" ".intercalate text)
    match Text.intWithin? leastExit mostExit code with
    | none => throw (.badExitCode code)
    | some z => pure (z % 256).toNat
  | ["flood", size] =>
    match Text.natUpTo? Text.maxWord size with
    | none => throw (.badSize size)
    | some n => do
      printBytes ⟨Array.replicate n 120⟩
      let input ← readRest
      print ("\nstdin=" ++ toString input.length)
      pure 0
  | words => throw (.unknownProbe words)

/-! ## Runs -/

/-- What the notary does with its arguments; the exit code. -/
def answer (o : Office) (args : List String) : Step Nat :=
  match Flags.read args with
  | (f, "debug" :: words) => plumbing o f words
  | (f, words) =>
    match f.trustDir with
    | none => throw .noTrustDir
    | some trustDir => do
      let server ← openServer o.here f
      command o server trustDir words
      pure 0

/-- A run from start to end, from the number of keys made so far. -/
def run (keyName : Nat → String) (request : Request) (made : Nat) (disk : Tree) :
    Reply × Nat × Tree :=
  let office : Office := ⟨request.here, request.environment, keyName⟩
  let desk : Desk := ⟨disk, request.stdin.data.toList, .empty, made⟩
  match Step.run (answer office request.args) desk with
  | (.ok code, d) => (⟨d.output, "", some code⟩, d.made, d.disk)
  | (.error trouble, d) =>
    (⟨d.output, trouble.report, some trouble.exit⟩, d.made, d.disk)

/-- The notary as a client program; its state is the number of keys it has made. -/
def client (keyName : Nat → String) : Client Nat := ⟨run keyName⟩

end Notary
end TrustTrial
