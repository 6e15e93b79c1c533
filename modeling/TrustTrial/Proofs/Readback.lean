import TrustTrial.Proofs.Fixtures
import TrustTrial.Proofs.Listings

/-!
# TrustTrial.Proofs.Readback

The key table of the notary as a trial reads it back. Rows tell keys apart (`eq_of_line_eq`), so
what a trial asks of the table are questions about the keys (`keyTable_told`): which have a role,
whether there is a single root key, and which root keys are new.
-/

namespace TrustTrial
namespace Notary

open Text

variable {directory : String} {k l : LocalKey} {keys added : List LocalKey}

/-- The role of a row is the first word of its line. -/
theorem role_eq_firstWord {output : String} {row : KeyRow} (h : row ∈ KeyListing.read output) :
    row.role = firstWord row.line := by
  obtain ⟨line, -, rfl⟩ := List.mem_map.1 h
  rfl

theorem rootRole_not_header : rootRole ∉ ["ROLE", "----"] := by decide

theorem rootRows_keyTable (hdir : '\n' ∉ directory.toList) (hkeys : ∀ k ∈ keys, k.Solid) :
    KeyListing.rootRows (KeyListing.read (keyTable directory keys)) =
      (keys.filter (fun k => k.role = rootRole)).map (keyRowOf directory) :=
  ofRole_keyTable hdir (fun k hk => (hkeys k hk).listable) rootRole_not_header

/-- A key that is not among those of a table has none of its rows, unless it claims to be a
header. -/
theorem line_notMem_keyTable (hdir : '\n' ∉ directory.toList) (hkeys : ∀ k ∈ keys, k.Solid)
    (hl : l.Solid) (hrole : l.role ∉ ["ROLE", "----"]) (hnew : l ∉ keys) :
    ∀ row ∈ KeyListing.read (keyTable directory keys), row.line ≠ (keyRowOf directory l).line := by
  intro row hrow hline
  have hsame : row.role = l.role := by
    rw [role_eq_firstWord hrow, hline]
    exact firstWord_keyRow hl.role _ _ _
  rw [read_keyTable hdir fun k hk => (hkeys k hk).listable, List.mem_append] at hrow
  rcases hrow with hheader | hrow
  · rw [← hsame, ← roles_keyHeader] at hrole
    exact hrole (List.mem_map_of_mem hheader)
  · obtain ⟨k, hk, rfl⟩ := List.mem_map.1 hrow
    rw [eq_of_line_eq (hkeys k hk) hl hline] at hk
    exact hnew hk

/-- Root keys that are added are the new ones, if all root rows from before are known and nothing
else is. -/
theorem newRootRows_added (hdir : '\n' ∉ directory.toList) (hkeys : ∀ k ∈ keys, k.Solid)
    (hadded : ∀ k ∈ added, k.Solid ∧ k.role = rootRole) (hnodup : (keys ++ added).Nodup)
    {known : List String}
    (hcurrent : ∀ row ∈ KeyListing.rootRows (KeyListing.read (keyTable directory keys)),
      row.line ∈ known)
    (hknown : ∀ line ∈ known, ∃ row ∈ KeyListing.read (keyTable directory keys), row.line = line) :
    KeyListing.newRootRows known (KeyListing.read (keyTable directory (keys ++ added))) =
      added.map (keyRowOf directory) := by
  have hboth : ∀ k ∈ keys ++ added, k.Solid :=
    List.forall_mem_append.2 ⟨hkeys, fun k hk => (hadded k hk).1⟩
  have hroots : added.filter (fun k => k.role = rootRole) = added :=
    List.filter_eq_self.2 fun k hk => decide_eq_true (hadded k hk).2
  rw [rootRows_keyTable hdir hkeys] at hcurrent
  rw [Trial.newRootRows_eq, rootRows_keyTable hdir hboth, List.filter_append, List.map_append,
    hroots, List.filter_append]
  have hold : ((keys.filter (fun k => k.role = rootRole)).map (keyRowOf directory)).filter
      (fun row => row.line ∉ known) = [] := by
    rw [List.filter_eq_nil_iff]
    intro row hrow
    simpa using hcurrent row hrow
  have hnew : (added.map (keyRowOf directory)).filter (fun row => row.line ∉ known) =
      added.map (keyRowOf directory) := by
    rw [List.filter_eq_self]
    intro row hrow
    obtain ⟨k, hk, rfl⟩ := List.mem_map.1 hrow
    have hfresh : k ∉ keys := fun hmem =>
      (List.nodup_append.1 hnodup).2.2 k hmem k hk rfl
    have hheader : k.role ∉ ["ROLE", "----"] := (hadded k hk).2 ▸ rootRole_not_header
    rw [decide_eq_true_eq]
    intro hmem
    obtain ⟨row, hrow, hline⟩ := hknown _ hmem
    exact line_notMem_keyTable hdir hkeys (hadded k hk).1 hheader hfresh row hrow hline
  rw [hold, hnew, List.nil_append]

/-! ## The table that is printed -/

open Step in
theorem reads_loadKeys (here : Disk.Location) (trustDir : String) (t : Disk.Tree) :
    ∃ result, Reads (loadKeys here trustDir) t result := by
  refine reads_bind ⟨_, reads_look _ t⟩ fun found => ?_
  split
  · exact reads_readFile here _ _ _ t
  · exact ⟨_, reads_pure _ t⟩

/-- The keys of a trust directory are printed as a table. -/
theorem run_listKeys {o : Office} {trustDir : String} {d : Desk}
    (h : (Step.run (loadKeys o.here trustDir) d).1 = .ok keys) :
    Step.run (listKeys o trustDir) d =
      (.ok (), { d with output := d.output ++ (keyTable (privateDir trustDir) keys).toUTF8 }) := by
  obtain ⟨result, hreads⟩ := reads_loadKeys o.here trustDir d.disk
  rw [hreads d rfl] at h
  obtain rfl : result = .ok keys := h
  have hprint : ∀ text e, Step.run (print text) e =
      (.ok (), { e with output := e.output ++ text.toUTF8 }) := fun _ _ => rfl
  rw [listKeys, Step.run_bind, hreads d rfl]
  dsimp only
  rw [Step.run_bind, hprint]
  dsimp only
  rw [hprint, ByteArray.append_assoc, keyTable]
  simp

/-- What a trial reads of the keys in a trust directory. -/
def rowsShown (trustDir : String) (keys : List LocalKey) : List KeyRow :=
  KeyListing.read (keyTable (privateDir trustDir) keys)

/-- The row of a key in a trust directory. -/
def rowShown (trustDir : String) (k : LocalKey) : KeyRow := keyRowOf (privateDir trustDir) k

/-- The table of a list of keys says what the keys are. For each role, but the words of the header,
its rows are those of the keys of the role in their order, and keys that differ have different rows.
So there is a single root row exactly if there is a single root key; and of root keys that are added
the rows are the new ones, against the root rows from before or against all rows from before. -/
theorem keyTable_told {trustDir : String} {keys : List LocalKey} (hdir : '\n' ∉ trustDir.toList)
    (hkeys : ∀ k ∈ keys, k.Solid) :
    (∀ o d, (Step.run (loadKeys o.here trustDir) d).1 = .ok keys →
        Step.run (listKeys o trustDir) d = (.ok (),
          { d with output := d.output ++ (keyTable (privateDir trustDir) keys).toUTF8 })) ∧
      (∀ role ∉ ["ROLE", "----"], KeyListing.ofRole role (rowsShown trustDir keys) =
        (keys.filter (fun k => k.role = role)).map (rowShown trustDir)) ∧
      (∀ k ∈ keys, ∀ l ∈ keys, (rowShown trustDir k).line = (rowShown trustDir l).line →
        k.role = l.role ∧ k.gun = l.gun ∧ k.id = l.id) ∧
      (∀ row, KeyListing.singleRoot (rowsShown trustDir keys) = .ok row ↔
        ∃ k, keys.filter (fun k => k.role = rootRole) = [k] ∧ rowShown trustDir k = row) ∧
      ∀ added known, (∀ k ∈ added, k.Solid ∧ k.role = rootRole) → (keys ++ added).Nodup →
        (∀ row ∈ KeyListing.rootRows (rowsShown trustDir keys), row.line ∈ known) →
        (∀ line ∈ known, ∃ row ∈ rowsShown trustDir keys, row.line = line) →
          KeyListing.newRootRows known (rowsShown trustDir (keys ++ added)) =
            added.map (rowShown trustDir) := by
  have hdir := Fixture.newline_notMem_privateDir hdir
  refine ⟨fun o d h => run_listKeys h, fun role hrole => ?_, fun k hk l hl h => ?_,
    fun row => ?_, fun added known hadded hnodup hcurrent hknown => ?_⟩
  · exact ofRole_keyTable hdir (fun k hk => (hkeys k hk).listable) hrole
  · obtain rfl := eq_of_line_eq (hkeys k hk) (hkeys l hl) h
    exact ⟨rfl, rfl, rfl⟩
  · rw [Trial.singleRoot_eq_ok, rowsShown, rootRows_keyTable hdir hkeys, List.map_eq_singleton_iff]
    rfl
  · exact newRootRows_added hdir hkeys hadded hnodup hcurrent hknown

/-- Keys with a gun and without one, and one that looks like the header. -/
def mixedKeys : List LocalKey :=
  [⟨"root", "", "a1"⟩, ⟨"delegation-of-the-releases", "demo", "b2"⟩, ⟨"ROLE", "GUN", "KEY"⟩]

/-- A desk with a list of keys at hand. -/
def mixedDesk (data : ByteArray) : Desk :=
  { disk := ⟨[(["a b"], .directory), (["a b", "private"], .directory),
      (["a b", "private", "keys.json"], .file data false)]⟩
    input := []
    output := .empty
    made := 0 }

theorem loadKeys_mixedDesk (keys : List LocalKey) :
    (Step.run (loadKeys [] "/a b")
      (mixedDesk (Json.Value.list (keys.map LocalKey.toValue)).pretty.toUTF8)).1 = .ok keys := by
  generalize htext : (Json.Value.list (keys.map LocalKey.toValue)).pretty = text
  have hlook : (mixedDesk text.toUTF8).disk.look [] (keysPath "/a b") =
      .ok (.file text.toUTF8 false) := rfl
  have hpresent : Step.run (present [] (keysPath "/a b")) (mixedDesk text.toUTF8) =
      (.ok true, mixedDesk text.toUTF8) := rfl
  have hread : Step.run (readText [] (keysPath "/a b")) (mixedDesk text.toUTF8) =
      (.ok text, mixedDesk text.toUTF8) := by
    simp only [Step.run, readText, look, Disk.Tree.readText, Disk.Tree.readBytes, hlook,
      fromUTF8?_toUTF8]
  rw [loadKeys, readList, Step.run_bind, hpresent]
  dsimp only
  rw [if_pos rfl, readFile, Step.run_bind, hread]
  dsimp only
  rw [← htext, readAs_keys]
  rfl

/-- The key that looks like the header does not hide the others, and of two root keys that are added
only these are new. -/
theorem keyTable_told_mixed :
    Step.run (listKeys ⟨[], .empty, fun _ => ""⟩ "/a b")
        (mixedDesk (Json.Value.list (mixedKeys.map LocalKey.toValue)).pretty.toUTF8) =
      (.ok (), { mixedDesk (Json.Value.list (mixedKeys.map LocalKey.toValue)).pretty.toUTF8 with
        output := (keyTable (privateDir "/a b") mixedKeys).toUTF8 }) ∧
      KeyListing.singleRoot (rowsShown "/a b" mixedKeys) =
        .ok (rowShown "/a b" ⟨"root", "", "a1"⟩) ∧
      KeyListing.newRootRows ((rowsShown "/a b" mixedKeys).map KeyRow.line)
          (rowsShown "/a b" (mixedKeys ++ [⟨"root", "", "c3"⟩, ⟨"root", "demo", "a1"⟩])) =
        [rowShown "/a b" ⟨"root", "", "c3"⟩, rowShown "/a b" ⟨"root", "demo", "a1"⟩] := by
  have hkeys : ∀ k ∈ mixedKeys, k.Solid := by
    simp only [mixedKeys, List.forall_mem_cons]
    exact ⟨⟨by decide, .inl rfl, by decide⟩, ⟨by decide, .inr (by decide), by decide⟩,
      ⟨by decide, .inr (by decide), by decide⟩, by simp⟩
  obtain ⟨hprint, -, -, hsingle, hnew⟩ := keyTable_told (by decide : '\n' ∉ "/a b".toList) hkeys
  refine ⟨?_, (hsingle _).2 ⟨_, rfl, rfl⟩, hnew _ _ ?_ (by decide) ?_ ?_⟩
  · have hrun := hprint ⟨[], .empty, fun _ => ""⟩ _ (loadKeys_mixedDesk mixedKeys)
    simpa [mixedDesk] using hrun
  · simp only [List.forall_mem_cons]
    exact ⟨⟨⟨by decide, .inl rfl, by decide⟩, rfl⟩, ⟨⟨by decide, .inr (by decide), by decide⟩, rfl⟩,
      by simp⟩
  · exact fun row hrow => List.mem_map_of_mem (List.mem_filter.1 hrow).1
  · exact fun line hline => List.mem_map.1 hline

end Notary
end TrustTrial
