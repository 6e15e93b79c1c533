import TrustTrial.Rotation
import TrustTrial.Runner
import TrustTrial.Text.Paint

/-!
# TrustTrial.Session

The state of a running trial and the steps it is made of: calling the client, showing something to
the operator, making and removing temporary entries. A step that fails keeps what it did before.

The journal lists what happened, in order. Nothing in a trial depends on it; it is what a trial can
be judged by.
-/

namespace TrustTrial

open Disk

inductive Event where
  | began (scenario : Scenario)
  | entered (stage : Stage)
  | called (request : Request) (reply : Reply)
  | loaded (document : RootDocument)
  | rotated (before after : RootState) (row : String)

/-- What the log tells about a call of the client. -/
structure CallRecord where
  command : String
  exit : Option Int
  stdinBytes : Nat
  stdoutBytes : Nat
  deriving DecidableEq, Repr

/-- The state of a trial. `printed` is what the operator saw, `stderr` what the client wrote past
its captured output, `temps` the number of temporary entries made so far, and `log` what has been
recorded about calls for a log that tells everything. -/
structure Session (σ : Type) where
  disk : Tree
  client : σ
  printed : String
  stderr : String
  temps : Nat
  journal : List Event
  log : List CallRecord

namespace Session

variable {σ : Type}

def start (disk : Tree) (client : σ) : Session σ := ⟨disk, client, "", "", 0, [], []⟩

def note (s : Session σ) (e : Event) : Session σ := { s with journal := s.journal ++ [e] }

end Session

/-- A step of a trial. -/
abbrev Trial (σ α : Type) := ExceptT Failure (StateM (Session σ)) α

namespace Trial

variable {σ α β : Type}

def run (x : Trial σ α) (s : Session σ) : Except Failure α × Session σ := x s

@[simp] theorem run_pure (a : α) (s : Session σ) : run (pure a) s = (.ok a, s) := rfl

@[simp] theorem run_throw (failure : Failure) (s : Session σ) :
    run (throw failure : Trial σ α) s = (.error failure, s) := rfl

theorem run_bind (x : Trial σ α) (f : α → Trial σ β) (s : Session σ) :
    run (x >>= f) s =
      match run x s with
      | (.error failure, s) => (.error failure, s)
      | (.ok a, s) => run (f a) s := by
  simp only [run, bind, ExceptT.bind, ExceptT.mk, StateT.bind, ExceptT.bindCont]
  cases x s with
  | mk result t => cases result <;> rfl

/-! ## Steps -/

def ofExcept (result : Except Failure α) : Trial σ α := fun s => (result, s)

/-- A step that only looks at the files. -/
def look (f : Tree → Except Failure α) : Trial σ α := fun s => (f s.disk, s)

/-- A step whose failure is kept for later. -/
def attempt (x : Trial σ α) : Trial σ (Except Failure α) := fun s => (.ok (run x s).1, (run x s).2)

def note (e : Event) : Trial σ Unit := fun s => (.ok (), s.note e)

/-- Adds to the log. -/
def record (entry : CallRecord) : Trial σ Unit := fun s =>
  (.ok (), { s with log := s.log ++ [entry] })

/-- Shows a line to the operator. -/
def say (line : String) : Trial σ Unit := fun s =>
  (.ok (), { s with printed := s.printed ++ line ++ "\n" })

/-- Says in which stage a check failed. -/
def inStage (stage : Stage) (result : Except Failure α) : Trial σ α :=
  ofExcept (match result with
    | .error failure => .error (failure.during stage)
    | .ok a => .ok a)

@[simp] theorem run_ofExcept (result : Except Failure α) (s : Session σ) :
    run (ofExcept result) s = (result, s) := rfl

@[simp] theorem run_look (f : Tree → Except Failure α) (s : Session σ) :
    run (look f) s = (f s.disk, s) := rfl

@[simp] theorem run_attempt (x : Trial σ α) (s : Session σ) :
    run (attempt x) s = (.ok (run x s).1, (run x s).2) := rfl

@[simp] theorem run_note (e : Event) (s : Session σ) : run (note e) s = (.ok (), s.note e) := rfl

@[simp] theorem run_record (entry : CallRecord) (s : Session σ) :
    run (record entry) s = (.ok (), { s with log := s.log ++ [entry] }) := rfl

@[simp] theorem run_say (line : String) (s : Session σ) :
    run (say line) s = (.ok (), { s with printed := s.printed ++ line ++ "\n" }) := rfl

/-! ## Temporary entries -/

/-- The path of the next temporary entry. -/
def nextTemp (m : Machine σ) (ending : String) (s : Session σ) : String :=
  Path.join m.tempDir (".tmp" ++ m.tempName s.temps ++ ending)

/-- Makes a new entry in the directory for temporary files; its path. -/
def makeTemp (m : Machine σ) (ending : String) (node : Node) : Trial σ String := fun s =>
  let path := nextTemp m ending s
  match s.disk.create m.here path node with
  | .error fault => (.error (.system (.at path fault)), s)
  | .ok disk => (.ok path, { s with disk := disk, temps := s.temps + 1 })

/-- Takes away a temporary entry; that it has gone already is no failure. -/
def clear (path : String) (removal : Tree → Except Fault Tree) : Trial σ Unit := fun s =>
  match removal s.disk with
  | .error fault => (if fault.isMissing then .ok () else .error (.system (.at path fault)), s)
  | .ok disk => (.ok (), { s with disk := disk })

/-- A temporary file that holds a payload. -/
def writePayload (m : Machine σ) (content : String) : Trial σ String :=
  makeTemp m "" (.file content.toUTF8 false)

def removePayload (m : Machine σ) (path : String) : Trial σ Unit :=
  clear path (fun disk => disk.removeFile m.here path)

end Trial

/-- A client identity: a label, and the trust directory with its keys and its copies of metadata. -/
structure TrustDir where
  label : String
  path : String
  deriving DecidableEq, Repr

namespace TrustDir

variable {σ : Type}

/-- A fresh directory whose name ends with the label. -/
def create (m : Machine σ) (label : String) : Trial σ TrustDir := do
  let path ← Trial.makeTemp m ("_" ++ label) .directory
  pure ⟨label, path⟩

/-- The identity that owns the repository for the whole trial. -/
def primary (m : Machine σ) : Trial σ TrustDir := create m "main"

/-- A second identity, fresh for a scenario. -/
def secondary (m : Machine σ) : Trial σ TrustDir := create m "temp"

def invocation (d : TrustDir) (args : List String) : Invocation := .new d.path args

def remove (m : Machine σ) (d : TrustDir) : Trial σ Unit :=
  Trial.clear d.path (fun disk => disk.removeDirectory m.here d.path)

end TrustDir
end TrustTrial
