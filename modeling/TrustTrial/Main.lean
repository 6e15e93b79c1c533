import TrustTrial.Notary.Command
import TrustTrial.Program

/-!
# TrustTrial.Main

The command line. The program tries itself out: the client is the notary, installed under its usual
name, and files, environment and server live in memory.
-/

namespace TrustTrial
namespace Main

open Disk

/-- A disk with a directory for temporary files, the notary, and its settings. -/
def disk : Tree := ⟨[
  (["tmp"], .directory),
  (["bin"], .directory),
  (["bin", "notary"], .file .empty true),
  (["config.json"], .file "\x7b\"storage\": \"/server\"\x7d".toUTF8 false)]⟩

/-- Probes are answered at once. -/
def healthy : Readiness.Health := ⟨fun _ => true, fun _ => 0⟩

def keyName (n : Nat) : String := Text.hexadecimal 32 n

def machine (repo : String) : Machine Nat where
  client := Notary.client keyName
  here := []
  environment := .ofList [("PATH", "/bin"), ("TMPDIR", "/tmp")]
  accountHome := none
  tempName := Text.hexadecimal 6
  freshName := repo
  health := healthy
  typed := none
  colored := false

end Main
end TrustTrial

open TrustTrial in
def main (words : List String) : IO UInt32 := do
  let repo := Text.hexadecimal 32 (← IO.rand 0 (Nat.pow 2 128 - 1))
  let ending := (Program.main (Main.machine repo) words (.start Main.disk 0)).1
  (← IO.getStdout).putStr ending.stdout
  (← IO.getStderr).putStr ending.stderr
  pure (UInt32.ofNat ending.exit)
