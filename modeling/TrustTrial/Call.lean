import TrustTrial.Session

/-!
# TrustTrial.Call

Calling the client within a trial. Its output is captured whole and read as text; its input is
what the invocation answers, whether it reads it or not.
-/

namespace TrustTrial
namespace Trial

open Disk

variable {σ : Type}

/-- Why the output of a call cannot be captured, if so: that needs the directory for temporary
files. -/
def captureFault (m : Machine σ) (disk : Tree) : Option Fault :=
  match disk.look m.here m.tempDir with
  | .error fault => some fault
  | .ok .directory => none
  | .ok (.file _ _) => some .notDirectory

/-- Starts the client and waits for its end. -/
def call (m : Machine σ) (command : String) (request : Request) : Trial σ Reply := fun s =>
  match captureFault m s.disk with
  | some fault => (.error (.system fault), s)
  | none =>
    match request.refused m.argumentSpace s.disk with
    | some fault => (.error (.notStarted command fault), s)
    | none =>
      let (reply, client, disk) := m.client.run request s.client s.disk
      let s := { s with client := client, disk := disk, stderr := s.stderr ++ reply.stderr }
      (.ok reply, s.note (.called request reply))

/-- Carries out an invocation, however it ends. What is recorded about it for the log tells how
long the input was, and nothing of what it said. -/
def execute (m : Machine σ) (r : Runner) (i : Invocation) : Trial σ Outcome := do
  let command := r.commandLine i
  if r.echo then say (Text.paint m.colored .dimmed "$" ++ " " ++ command)
  let reply ← call m command (r.request m i)
  let stdout := Text.ofBytes reply.stdout
  record ⟨command, reply.exit, (r.request m i).stdin.size, stdout.utf8ByteSize⟩
  if r.echo then say stdout
  pure ⟨stdout, reply.exit⟩

/-- Carries out an invocation that has to succeed; its output. -/
def invoke (m : Machine σ) (r : Runner) (i : Invocation) : Trial σ String := do
  let outcome ← execute m r i
  ofExcept (outcome.output (r.commandLine i))

end Trial
end TrustTrial
