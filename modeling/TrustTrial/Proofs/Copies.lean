import TrustTrial.Proofs.Chronicles

/-!
# TrustTrial.Proofs.Copies

What a client's copy of a root document says. A trial that looks into a trust directory after the
notary has written there reads the record's own keys and roles, whatever texts they are made of and
however the directory and the repository are named.
-/

namespace TrustTrial
namespace Notary

open Disk

/-- The notary keeps its copies where a trial looks for them. -/
theorem rootPath_eq (trustDir repo : String) :
    rootPath trustDir repo = RootDocument.path trustDir repo := rfl

/-- What a step has written, it has written as UTF-8. -/
theorem readText_of_writeFile {here : Location} {path : String} {v : Json.Value} {d e : Desk}
    (h : Step.run (writeFile here path v) d = (.ok (), e)) :
    e.disk.readText here path = .ok v.pretty := by
  rw [Step.run, writeFile] at h
  split at h
  · cases (Prod.mk.inj h).1
  · rename_i disk _
    split at h
    · cases (Prod.mk.inj h).1
    · rename_i written hwrite
      cases (Prod.mk.inj h).2
      rw [Tree.readText, Tree.readBytes_of_write hwrite]
      simp only [Text.fromUTF8?_toUTF8]

/-- Once a copy is written, a trial finds in it as many keys as the record has, exactly the ids of
the record's keys, for every role of the record the ids that are trusted for it, and none for any
other role. -/
theorem load_sync {here : Location} {trustDir repo : String} {r : Record} {d e : Desk}
    (hversion : r.version ≤ Text.maxWord)
    (h : Step.run (sync here trustDir repo r) d = (.ok (), e)) :
    ∃ document, RootDocument.load e.disk here trustDir repo = .ok document ∧
      document.keyCount = r.keys.size ∧
      (∀ id, document.hasKey id = true ↔ r.keys.contains id = true) ∧
      (∀ role ids, r.roles.get? role = some ids → document.trustedKeys role = ids) ∧
      ∀ role, r.roles.get? role = none → document.trustedKeys role = [] := by
  have htext : e.disk.readText here (RootDocument.path trustDir repo) =
      .ok r.rootDocument.pretty := by
    rw [← rootPath_eq]
    exact readText_of_writeFile h
  refine ⟨r.seen, load_of_readText htext (read_rootDocument hversion), keyCount_seen r,
    fun id => ?_, fun role ids hids => ?_, fun role hnone => ?_⟩
  · rw [hasKey_seen]
  · rw [trustedKeys_seen, hids, Option.getD_some]
  · rw [trustedKeys_seen, hnone, Option.getD_none]

/-- A record whose texts all have to be escaped: quotes, backslashes, controls, no text at all. -/
def oddRecord : Record where
  keys := .ofList [("", "\"root\""), ("\\\n", "ω"), ("k\x00", "\t")]
  roles := .ofList [("\"root\"", ["", "\\\n"]), ("nobody", []), ("𝔯", ["k\x00", "lost"])]
  targets := .empty
  version := Text.maxWord

/-- The copy of such a record, in a directory for a repository with slashes in its name. -/
theorem load_sync_odd : ∃ e document,
    Step.run (sync [] "/home" "a/b" oddRecord) ⟨demoTree, [], .empty, 0⟩ = (.ok (), e) ∧
      RootDocument.load e.disk [] "/home" "a/b" = .ok document ∧ document.keyCount = 3 ∧
      document.hasKey "k\x00" = true ∧ document.trustedKeys "\"root\"" = ["", "\\\n"] ∧
      document.trustedKeys "targets" = [] := by
  have hleads : demoTree.Leads [] (rootPath "/home" "a/b") ["home"] ["tuf", "a", "b", "metadata"]
      "root.json" :=
    ⟨by decide +kernel, ⟨["", "home"], by decide, by decide +kernel, rfl⟩, by decide +kernel,
      by decide +kernel⟩
  have hclear : demoTree.Clear ["home"] ["tuf", "a", "b", "metadata"] := by
    refine ⟨rfl, fun front hfront => ?_⟩
    cases front with
    | nil => exact .inl rfl
    | cons folder front =>
      refine .inr fun place hplace => ?_
      obtain ⟨rest, rfl⟩ := hplace
      rfl
  obtain ⟨t, hrun, -⟩ := run_writeFile (d := ⟨demoTree, [], .empty, 0⟩) hleads hclear
    (by rw [show demoTree.find? _ = none from rfl]; exact nofun) oddRecord.rootDocument
  obtain ⟨document, hload, hcount, hkeys, hroles, hothers⟩ :=
    load_sync (r := oddRecord) (Nat.le_refl _) hrun
  exact ⟨_, document, hrun, hload, hcount.trans (by decide +kernel),
    (hkeys _).2 (by decide +kernel), hroles _ _ (by decide +kernel),
    hothers _ (by decide +kernel)⟩

end Notary
end TrustTrial
