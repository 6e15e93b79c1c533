import TrustTrial.Proofs.Copies

/-!
# TrustTrial.Proofs.Storing

What the notary keeps in its files from one run to the next. A record, the keys of a client and its
staged additions are read back as they were written, by whichever run reads them and under whichever
path, for as long as the bytes of the file stay (`files_restored`). So storing a state never changes
it: `loadRecord_saveRecord`, `loadKeys_saveKeys`, `loadStaged_saveStaged`.
-/

namespace TrustTrial
namespace Notary

open Disk
open Text (maxWord)

variable {α : Type} {shape : Json.Shape} {ofValue? : Json.Value → Option α} {v : Json.Value} {a : α}
  {here : Location} {path server trustDir repo : String} {d e : Desk}

/-- A value is written in such a way that every later run reads `a` from the file, as long as its
bytes are still the ones that were written. -/
def Restores (shape : Json.Shape) (ofValue? : Json.Value → Option α) (v : Json.Value) (a : α) :
    Prop :=
  ∀ here path d e, Step.run (writeFile here path v) d = (.ok (), e) →
    ∀ here' path' d', d'.disk.readBytes here' path' = e.disk.readBytes here path →
      Step.run (readFile here' shape ofValue? path') d' = (.ok a, d')

theorem restores_of_readAs (h : readAs shape ofValue? v.pretty = .ok a) :
    Restores shape ofValue? v a := by
  intro here path d e hwrite here' path' d' hbytes
  have htext : d'.disk.readText here' path' = .ok v.pretty := by
    rw [← readText_of_writeFile hwrite, Tree.readText, Tree.readText, hbytes]
  exact run_readFile htext h

theorem Restores.readFile (h : Restores shape ofValue? v a)
    (hwrite : Step.run (writeFile here path v) d = (.ok (), e)) :
    Step.run (Notary.readFile here shape ofValue? path) e = (.ok a, e) :=
  h here path d e hwrite here path e rfl

theorem run_present_of_writeFile (hwrite : Step.run (writeFile here path v) d = (.ok (), e)) :
    Step.run (present here path) e = (.ok true, e) := by
  rw [run_present, leads_of_readText (readText_of_writeFile hwrite)]

/-! ## The three formats -/

theorem restores_record {r : Record} (h : r.Bounded) :
    Restores Record.shape Record.ofValue? r.toValue r :=
  restores_of_readAs (readAs_record h)

theorem restores_keys (keys : List LocalKey) :
    Restores (.listOf LocalKey.shape) (toList? LocalKey.ofValue?)
      (.list (keys.map LocalKey.toValue)) keys :=
  restores_of_readAs (readAs_keys keys)

theorem restores_staged {staged : List Staged} (h : ∀ s ∈ staged, s.target.size ≤ maxWord) :
    Restores (.listOf Staged.shape) (toList? Staged.ofValue?)
      (.list (staged.map Staged.toValue)) staged :=
  restores_of_readAs (readAs_staged h)

/-- Every record, every list of keys and every list of staged additions is read back as it was
written, whatever its texts and as long as its numbers fit into 64 bits. -/
theorem files_restored (r : Record) (keys : List LocalKey) (staged : List Staged) (hr : r.Bounded)
    (hstaged : ∀ s ∈ staged, s.target.size ≤ maxWord) :
    Restores Record.shape Record.ofValue? r.toValue r ∧
      Restores (.listOf LocalKey.shape) (toList? LocalKey.ofValue?)
        (.list (keys.map LocalKey.toValue)) keys ∧
      Restores (.listOf Staged.shape) (toList? Staged.ofValue?)
        (.list (staged.map Staged.toValue)) staged :=
  ⟨restores_record hr, restores_keys keys, restores_staged hstaged⟩

/-! ### A sample -/

/-- The state of a repository with texts that have to be escaped and the largest of numbers. -/
def oddState : Record :=
  { oddRecord with targets := .ofList [("", ⟨"\x7f", 0⟩), ("\"\\\"", ⟨"\x00", maxWord⟩)] }

def oddKeys : List LocalKey := [⟨"\"root\"", "", "\\\n"⟩, ⟨"", "a/b", "𝔯\x00"⟩]

def oddStaged : List Staged := [⟨"\t", ⟨"", maxWord⟩⟩, ⟨"", ⟨"\\", 0⟩⟩, ⟨"\t", ⟨"\"", 1⟩⟩]

def oddDesk : Desk := ⟨demoTree, [], .empty, 0⟩

theorem writes_oddDesk (v : Json.Value) :
    ∃ e, Step.run (writeFile [] "/home/state" v) oddDesk = (.ok (), e) := by
  have hleads : demoTree.Leads [] "/home/state" ["home"] [] "state" :=
    ⟨by decide +kernel, ⟨["", "home"], by decide, by decide +kernel, rfl⟩, by decide +kernel,
      by decide +kernel⟩
  obtain ⟨t, hrun, -⟩ := run_writeFile (d := oddDesk) hleads
    (Tree.clear_of_nothing rfl (fun _ _ => rfl) _)
    (by rw [show oddDesk.disk.find? _ = none from rfl]; exact nofun) v
  exact ⟨_, hrun⟩

theorem files_restored_odd : ∃ record keys staged,
    (Step.run (writeFile [] "/home/state" oddState.toValue) oddDesk = (.ok (), record) ∧
      Step.run (readFile [] Record.shape Record.ofValue? "/home/state") record =
        (.ok oddState, record)) ∧
    (Step.run (writeFile [] "/home/state" (.list (oddKeys.map LocalKey.toValue))) oddDesk =
        (.ok (), keys) ∧
      Step.run (readFile [] (.listOf LocalKey.shape) (toList? LocalKey.ofValue?) "/home/state")
        keys = (.ok oddKeys, keys)) ∧
    Step.run (writeFile [] "/home/state" (.list (oddStaged.map Staged.toValue))) oddDesk =
        (.ok (), staged) ∧
      Step.run (readFile [] (.listOf Staged.shape) (toList? Staged.ofValue?) "/home/state")
        staged = (.ok oddStaged, staged) := by
  obtain ⟨record, hrecord⟩ := writes_oddDesk oddState.toValue
  obtain ⟨keys, hkeys⟩ := writes_oddDesk (.list (oddKeys.map LocalKey.toValue))
  obtain ⟨staged, hstaged⟩ := writes_oddDesk (.list (oddStaged.map Staged.toValue))
  have hbounded : oddState.Bounded := ⟨Nat.le_refl _, by decide +kernel⟩
  obtain ⟨hreadRecord, hreadKeys, hreadStaged⟩ :=
    files_restored oddState oddKeys oddStaged hbounded (by decide +kernel)
  exact ⟨record, keys, staged, ⟨hrecord, hreadRecord.readFile hrecord⟩,
    ⟨hkeys, hreadKeys.readFile hkeys⟩, hstaged, hreadStaged.readFile hstaged⟩

/-! ## States that are saved and loaded -/

theorem loadRecord_saveRecord {r : Record} (hr : r.Bounded)
    (h : Step.run (saveRecord here server repo r) d = (.ok (), e)) :
    Step.run (loadRecord here server repo) e = (.ok r, e) := by
  rw [loadRecord, Step.run_bind, run_present_of_writeFile h]
  exact (restores_record hr).readFile h

theorem readList_writeFile {xs : List α} (hx : Restores (.listOf shape) (toList? ofValue?) v xs)
    (h : Step.run (writeFile here path v) d = (.ok (), e)) :
    Step.run (readList here shape ofValue? path) e = (.ok xs, e) := by
  rw [readList, Step.run_bind, run_present_of_writeFile h]
  exact hx.readFile h

theorem loadKeys_saveKeys {keys : List LocalKey}
    (h : Step.run (saveKeys here trustDir keys) d = (.ok (), e)) :
    Step.run (loadKeys here trustDir) e = (.ok keys, e) :=
  readList_writeFile (restores_keys keys) h

theorem loadStaged_saveStaged {staged : List Staged} (hstaged : ∀ s ∈ staged, s.target.size ≤ maxWord)
    (h : Step.run (saveStaged here trustDir repo staged) d = (.ok (), e)) :
    Step.run (loadStaged here trustDir repo) e = (.ok staged, e) :=
  readList_writeFile (restores_staged hstaged) h

end Notary
end TrustTrial
