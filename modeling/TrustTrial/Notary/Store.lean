import TrustTrial.Notary.Desk
import TrustTrial.Notary.Flags

/-!
# TrustTrial.Notary.Store

Where the notary keeps things. The server is a directory with a file for every repository; a
client's trust directory holds its keys, its staged additions and its copies of root documents.
-/

namespace TrustTrial
namespace Notary

open Disk

/-! ## The server -/

def replaceSlashes (repo : String) : String :=
  .ofList (repo.toList.map (fun c => if c = '/' then '_' else c))

def recordPath (server repo : String) : String :=
  Path.join server (replaceSlashes repo ++ ".json")

def loginPath (server : String) : String := Path.join server "login.json"

def stalePath (server : String) : String := Path.join server "stale_suffix"

/-- The directory of a server address, if it is one of a directory. -/
def serverDir? (url : String) : Option String :=
  match url.toList with
  | 'f' :: 'i' :: 'l' :: 'e' :: ':' :: '/' :: '/' :: dir => some (.ofList dir)
  | _ => none

def storage? (config : Json.Value) : Option String :=
  match config.field? "storage" with
  | some (.text dir) => some dir
  | _ => none

/-- The directory of the server that the flags choose. -/
def openServer (here : Location) (f : Flags) : Step String :=
  match f.server, f.embedded with
  | some url, false =>
    match serverDir? url with
    | none => throw (.otherServer url)
    | some dir => pure dir
  | none, true =>
    match f.config with
    | none => throw .noConfig
    | some config => do
      let text ← readText here config
      match Json.read .anything text with
      | .error fault => throw (.notJson fault)
      | .ok v =>
        match storage? v with
        | none => throw .noStorage
        | some dir => pure dir
  | _, _ => throw .oneServer

/-- Asks for a user name and a password if the server wants a login. -/
def login (here : Location) (server : String) : Step Unit := do
  let path := loginPath server
  if ← present here path then
    let expected ← readFile here Login.shape Login.ofValue? path
    let username ← readLine
    let password ← readLine
    if username = expected.username ∧ password = expected.password then pure ()
    else throw (.loginFailed username)

/-- Whether a trust directory is served by a mirror that has fallen behind. -/
def isStale (disk : Tree) (here : Location) (server trustDir : String) : Bool :=
  match disk.readText here (stalePath server), Path.fileName? trustDir with
  | .ok text, some name =>
    let ending := Text.trimChars text.toList
    !ending.isEmpty && ending.isSuffixOf name.toList
  | _, _ => false

def loadRecord (here : Location) (server repo : String) : Step Record := do
  let path := recordPath server repo
  if ← present here path then readFile here Record.shape Record.ofValue? path
  else throw (.repoMissing repo)

def saveRecord (here : Location) (server repo : String) (r : Record) : Step Unit :=
  writeFile here (recordPath server repo) r.toValue

/-! ## Trust directories -/

def privateDir (trustDir : String) : String := Path.join trustDir "private"

def keysPath (trustDir : String) : String := Path.join (privateDir trustDir) "keys.json"

def stagedPath (trustDir repo : String) : String :=
  Path.join (Path.join (Path.join trustDir "tuf") repo) "changelist.json"

def readList {α : Type} (here : Location) (shape : Json.Shape)
    (ofValue? : Json.Value → Option α) (path : String) : Step (List α) := do
  if ← present here path then readFile here (.listOf shape) (toList? ofValue?) path
  else pure []

def loadKeys (here : Location) (trustDir : String) : Step (List LocalKey) :=
  readList here LocalKey.shape LocalKey.ofValue? (keysPath trustDir)

def saveKeys (here : Location) (trustDir : String) (keys : List LocalKey) : Step Unit :=
  writeFile here (keysPath trustDir) (.list (keys.map LocalKey.toValue))

def loadStaged (here : Location) (trustDir repo : String) : Step (List Staged) :=
  readList here Staged.shape Staged.ofValue? (stagedPath trustDir repo)

def saveStaged (here : Location) (trustDir repo : String) (staged : List Staged) : Step Unit :=
  writeFile here (stagedPath trustDir repo) (.list (staged.map Staged.toValue))

/-- Where a client's copy of the root document lies. -/
def rootPath (trustDir repo : String) : String :=
  Path.join (Path.join (Path.join (Path.join trustDir "tuf") repo) "metadata") "root.json"

/-- Brings a client's copy of the root document up to date. -/
def sync (here : Location) (trustDir repo : String) (r : Record) : Step Unit :=
  writeFile here (rootPath trustDir repo) r.rootDocument

end Notary
end TrustTrial
