import TrustTrial.Proofs.Dicts
import TrustTrial.Proofs.Rotations

/-!
# TrustTrial.Proofs.Reuse

How far a trial notices that a key is used again. It remembers the root keys that were trusted, not
all keys that a root document lists; so a client can make an old key of another role the new root
key, if it adds some key that it does not need (`promoter`). A client that adds no other key than the
new root key cannot, since the documents are counted.
-/

namespace TrustTrial

/-! ## Counting keys -/

namespace RootDocument

/-- All keys of `a` are keys of `b`. -/
def Within (a b : RootDocument) : Prop := ∀ key, a.hasKey key = true → b.hasKey key = true

/-- All keys of `after` are keys of `before`, `key` perhaps excepted. -/
def AddsOnly (before after : RootDocument) (key : String) : Prop :=
  ∀ other, after.hasKey other = true → other ≠ key → before.hasKey other = true

variable {before after : RootDocument} {key : String}

theorem Within.keyCount_le (h : after.Within before) : after.keyCount ≤ before.keyCount :=
  (Dict.size_le_of_contains h).1

/-- If a document has one key more than another one, and at most `key` is added, `key` is. -/
theorem AddsOnly.fresh (h : before.AddsOnly after key)
    (hgrown : after.keyCount = before.keyCount + 1) : before.hasKey key = false := by
  refine Bool.eq_false_iff.2 fun hkey => ?_
  have hwithin : after.Within before := by
    intro other hother
    by_cases hsame : other = key
    · exact hsame ▸ hkey
    · exact h other hother hsame
  have hle := hwithin.keyCount_le
  omega

end RootDocument

namespace Trial

variable {σ : Type} {m : Machine σ} {r : Runner}

/-! ## What is noticed -/

/-- The rotation in `events` trusts a root key that was never trusted before, and that no earlier
document had, in any role, as far as the client drops no keys and adds no other key. -/
def Unused (docs : List RootDocument) (events : List Event) : Prop :=
  ∃ before after key, documents events = [before, after] ∧ after.trustedKeys rootRole = [key] ∧
    (∀ d ∈ docs ++ [before], key ∉ d.trustedKeys rootRole) ∧
    (before.AddsOnly after key →
      ∀ d ∈ docs ++ [before], d.Within before → d.hasKey key = false)

theorem InOrder.unused {docs : List RootDocument} {tables : List (List String)}
    {scenario : Scenario} {events : List Event} (h : InOrder r docs tables scenario events)
    (hscenario : scenario ≠ .basicRepo) : Unused docs events := by
  rw [InOrder, if_neg hscenario] at h
  obtain ⟨before, after, key, _, _, _, hdocs, -, hgrown, hkey, hfresh, -⟩ := h
  refine ⟨before, after, key, hdocs, hkey, hfresh, fun honly d _ hwithin => ?_⟩
  -- a document within `before` that had the key would give it to `before`
  refine Bool.eq_false_iff.2 fun hd => ?_
  have hnew := honly.fresh hgrown
  exact Bool.noConfusion (hnew.symm.trans (hwithin key hd))

/-- A trial that passes has noticed what it could of keys that are used again, whatever the client
is. Each rotation, the first one or a later one, trusts a root key that was unused before. -/
theorem runAll_unused {repo : String} {scenarios passed : List Scenario} {disk : Disk.Tree} {c : σ}
    {t : Session σ} (h : run (runAll m r repo scenarios) (Session.start disk c) = (.ok passed, t)) :
    ∃ parts, parts.map Prod.fst = scenarios ∧ t.journal = journalOf parts ∧
      ∀ past part future, parts = past ++ part :: future → part.1 ≠ .basicRepo →
        Unused (documents (journalOf past)) part.2 := by
  obtain ⟨primary, s, u, hstart, hend, hrun⟩ := runEach_of_runAll h
  have hempty : Covers .empty (documents s.journal) (rootTables r s.journal) := by
    rw [hstart]
    exact covers_empty
  obtain ⟨-, parts, hparts, hjournal, horder⟩ := runEach_inOrder hempty hrun
  rw [hstart, List.nil_append] at hjournal
  refine ⟨parts, hparts, hend.trans hjournal, fun past part future hsplit hpart => ?_⟩
  have hpast := (horder past part future hsplit).2.unused hpart
  simpa [hstart] using hpast

/-- A trial that only has the root key rotated a further time, with the client of two root keys. -/
def furtherTurn : Except Failure (List Scenario) × Session Bool :=
  run (runAll ((Main.machine "sample").withClient twoKeys) sampleRunner "sample" [.rootRerotation])
    (Session.start Main.disk false)

/-- The key that the rotation trusts was in no document before. -/
theorem runAll_unused_twoKeys :
    ∃ before after key, documents furtherTurn.2.journal = [before, after] ∧
      after.trustedKeys rootRole = [key] ∧ before.hasKey key = false := by
  have hview : failure? furtherTurn.1 = none ∧
      (documents furtherTurn.2.journal).map (fun d => (d.keys.keys, d.trustedKeys rootRole)) =
        [(["a"], ["a"]), (["a", "b"], ["b"])] := by decide +kernel
  rcases h : furtherTurn with ⟨result, t⟩
  rw [h] at hview
  obtain ⟨hpasses, hview⟩ := hview
  cases result with
  | error failure => cases hpasses
  | ok passed =>
    obtain ⟨parts, hparts, hjournal, hunused⟩ := runAll_unused (by rw [← furtherTurn, h])
    obtain ⟨⟨scenario, events⟩, rfl, hscenario⟩ := List.map_eq_singleton_iff.1 hparts
    have hturn : scenario ≠ .basicRepo := by
      rintro rfl
      cases hscenario
    obtain ⟨before, after, key, hdocs, hkey, -, hnew⟩ := hunused [] _ [] rfl hturn
    have hall : documents t.journal = [before, after] := by simp [hjournal, hdocs]
    simp only [hall, List.map_cons, List.map_nil, List.cons.injEq, Prod.mk.injEq, and_true] at hview
    obtain ⟨⟨hbefore, -⟩, hafter, htrusted⟩ := hview
    obtain rfl : key = "b" := by simpa using hkey.symm.trans htrusted
    have honly : before.AddsOnly after "b" := by
      intro other hother hne
      rw [RootDocument.hasKey, ← Dict.mem_keys] at hother ⊢
      rw [hafter] at hother
      rw [hbefore]
      simpa [hne] using hother
    exact ⟨before, after, "b", hall, hkey, hnew honly before (by simp) fun _ hkey => hkey⟩

/-! ## What is not noticed -/

/-- A client with a root key and a targets key. A rotation makes the targets key the root key, and
adds a third key that no role trusts; a new row in the key list hides this. -/
def promoter : Client Bool where
  run q rotated disk :=
    let rotated := rotated || q.args.contains "root"
    let home := ["tmp", ".tmp000002_temp", "tuf"]
    let document := fun keys trusted =>
      "\x7b\"signed\": \x7b\"keys\": \x7b" ++ keys ++
        "\x7d, \"roles\": \x7b\"root\": \x7b\"keyids\": [\"" ++ trusted ++
        "\"]\x7d, \"targets\": \x7b\"keyids\": [\"t\"]\x7d\x7d\x7d\x7d"
    let text := if rotated then document "\"r\": 0, \"t\": 0, \"x\": 0" "t"
      else document "\"r\": 0, \"t\": 0" "r"
    let rows := if rotated then "root r\nroot n\n" else "root r\n"
    let disk := (((disk.put home .directory).put (home ++ ["sample"]) .directory).put
      (home ++ ["sample", "metadata"]) .directory).put
      (home ++ ["sample", "metadata", "root.json"]) (.file text.toUTF8 false)
    let said := if q.args.contains "key" then rows else basicTarget ++ " targets"
    (⟨said.toUTF8, "", some 0⟩, rotated, disk)

/-- A trial with that client. -/
def promotion : Except Failure (List Scenario) × Session Bool :=
  run (runAll ((Main.machine "sample").withClient promoter) sampleRunner "sample" [.rootRerotation])
    (Session.start Main.disk false)

/-- The trial passes, although the new root key is in the document from before the rotation. -/
theorem promotion_passes :
    failure? promotion.1 = none ∧
      (documents promotion.2.journal).map (fun d => (d.keys.keys, d.trustedKeys rootRole)) =
        [(["r", "t"], ["r"]), (["r", "t", "x"], ["t"])] := by
  decide +kernel

end Trial
end TrustTrial
