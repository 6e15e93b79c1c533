import TrustTrial.Proofs.Hindrances

/-!
# TrustTrial.Proofs.Recognition

Two ends that know nothing of each other: a trial judges a rotation of the root key by two root
documents, and the notary moves keys about as it is told. Between any two moments of a server, the
judgement is that there has been a rotation if and only if the root key was rotated exactly once and
no role was new; publications and rotations of other keys do not count.
-/

namespace TrustTrial
namespace Notary

open Disk

/-- A file that a trial reads as a root document. -/
def Shows (data : Option ByteArray) (document : RootDocument) : Prop :=
  ∃ bytes text, data = some bytes ∧ String.fromUTF8? bytes = some text ∧
    RootDocument.read text = .ok document

section Recognition

variable {keyName : Nat → String} {shelf : Location} {s t u : Store} {pages more : List Page}
  {p : Page} {name repo : String}

theorem shows_printedRoot {r : Record} (h : r.version ≤ Text.maxWord) :
    Shows (some r.printedRoot) r.seen :=
  ⟨_, _, rfl, Text.fromUTF8?_toUTF8 _, read_rootDocument h⟩

/-- What a trial asks of a record after a rotation. -/
theorem rotated_seen_iff {before state : RootState} {new : Record} {id : String}
    (hid : new.roles.get? "root" = some [id]) {trusted : List String} :
    before.rotated new.seen trusted = .ok state ↔
      new.keys.size = before.keyCount + 1 ∧ id ≠ before.rootKey ∧ id ∉ trusted ∧
        state = ⟨new.keys.size, id⟩ := by
  simp only [RootState.rotated, keyCount_seen, capture_seen hid]
  by_cases hcount : new.keys.size = before.keyCount + 1
  · by_cases hsame : id = before.rootKey
    · simp [hcount, hsame]
    · by_cases hseen : id ∈ trusted
      · simp [hcount, hsame, hseen]
      · simp [hcount, hsame, hseen, eq_comm]
  · simp [hcount]

/-- What two records of one repository tell about the pages between them. `made` is the number of keys
made before. -/
structure Between (keyName : Nat → String) (name : String) (made : Nat) (more : List Page)
    (old new : Record) : Prop where
  size : new.keys.size + old.roles.size = old.keys.size + new.roles.size + rootTurns name more
  roles : old.roles.size ≤ new.roles.size ∧ (new.roles.size = old.roles.size ↔
    ∀ role ∈ rolesTurned name more, old.roles.contains role = true)
  turns : (rootsMade name more).length = rootTurns name more
  fresh : ∀ n ∈ rootsMade name more, made ≤ n
  trusted : ∃ id, old.roles.get? "root" = some [id] ∧
    if rootsMade name more = [] then new.roles.get? "root" = some [id]
    else ∃ n ∈ rootsMade name more, new.roles.get? "root" = some [keyName n]

theorem Performs.made_le {home : Location} {files : String → Except Fault ByteArray}
    {f f' : Tree.Contents} {made made' : Nat} {errand : Errand}
    (h : Performs keyName shelf home files f made errand f' made') : made ≤ made' := by
  cases h <;> omega

/-- Keys are numbered on. -/
theorem Chronicle.made_le (hs : s.disk.Regular) (h : Chronicle keyName shelf s pages t) :
    s.made ≤ t.made ∧ ∀ p ∈ pages, s.made ≤ p.before.made := by
  have hinduct := h.induct
    (P := fun pages t => s.made ≤ t.made ∧ ∀ p ∈ pages, s.made ≤ p.before.made) hs
  refine (hinduct ⟨Nat.le_refl _, by simp⟩ ?_ ?_).2
  · rintro pages p ⟨hmade, hpages⟩ -
    refine ⟨hmade, List.forall_mem_append.2 ⟨hpages, ?_⟩⟩
    simpa using hmade
  · rintro pages p u ⟨hmade, hpages⟩ - - hperforms
    exact ⟨Nat.le_trans hmade hperforms.made_le,
      List.forall_mem_append.2 ⟨hpages, by simpa using hmade⟩⟩

/-- Roles are only added. -/
theorem Record.Keeps.roles_between {made made' : Nat} {older turned : List String}
    {roots roots' : List Nat} {old new : Record} (hold : old.Keeps keyName made older roots)
    (hnew : new.Keeps keyName made' (older ++ turned) roots') :
    old.roles.size ≤ new.roles.size ∧ (new.roles.size = old.roles.size ↔
      ∀ role ∈ turned, old.roles.contains role = true) := by
  have hsize := Dict.size_le_of_contains (a := old.roles) (b := new.roles) fun role hrole => by
    rw [hnew.ruling]
    exact List.mem_append_left _ ((hold.ruling role).1 hrole)
  refine ⟨hsize.1, hsize.2.trans ⟨fun h role hrole => h role ?_, fun h role hrole => ?_⟩⟩
  · rw [hnew.ruling]
    exact List.mem_append_right _ hrole
  · rcases List.mem_append.1 ((hnew.ruling role).1 hrole) with hrole | hrole
    · exact (hold.ruling role).2 hrole
    · exact h role hrole

/-- The trusted root key is the last that was made. -/
theorem Record.Keeps.trusted_between {made made' : Nat} {older newer : List String}
    {roots added : List Nat} {old new : Record} (hold : old.Keeps keyName made older roots)
    (hnew : new.Keeps keyName made' newer (roots ++ added)) :
    ∃ id, old.roles.get? "root" = some [id] ∧
      if added = [] then new.roles.get? "root" = some [id]
      else ∃ n ∈ added, new.roles.get? "root" = some [keyName n] := by
  obtain ⟨olds, n, rfl, htrusted⟩ := hold.latest
  obtain ⟨news, m, hroots, htrusted'⟩ := hnew.latest
  refine ⟨keyName n, htrusted, ?_⟩
  rcases List.eq_nil_or_concat added with rfl | ⟨rest, k, rfl⟩
  · rw [if_pos rfl]
    rw [List.append_nil] at hroots
    obtain ⟨-, he⟩ := List.append_inj' hroots rfl
    obtain rfl := (List.cons.inj he).1
    exact htrusted'
  · rw [if_neg (by simp)]
    rw [List.concat_eq_append, ← List.append_assoc] at hroots
    obtain ⟨-, he⟩ := List.append_inj' hroots rfl
    obtain rfl := (List.cons.inj he).1
    exact ⟨k, by simp, htrusted'⟩

theorem Chronicle.between (hinj : Function.Injective keyName) (ht : t.Upheld keyName shelf repo)
    (h : Chronicle keyName shelf t more u) {old : Record}
    (hold : TellsRecord (t.disk.content (recordPlace shelf repo)) old) :
    ∃ new : Record, u.disk.content (recordPlace shelf repo) = some new.printed ∧
      new.version ≤ Text.maxWord ∧ Between keyName (recordName repo) t.made more old new ∧
        ∀ p ∈ more.getLast?, p.done = true → p.errand.shows? = some repo →
          u.disk.content (rootPlace p.home repo) = some new.printedRoot := by
  obtain ⟨hprinted, roles, roots, hkeeps⟩ := ht.keeps hold
  obtain ⟨new, hcontent, ⟨hkeeps', hcount⟩, hshows⟩ := h.continues hinj ht.regular hprinted hkeeps
  obtain ⟨-, hmade⟩ := h.made_le ht.regular
  refine ⟨new, hcontent, hkeeps'.version_le, ⟨?_, hkeeps.roles_between hkeeps', hcount,
    fun n hn => ?_, hkeeps.trusted_between hkeeps'⟩, hshows⟩
  · have hsize := hkeeps.size
    have hsize' := hkeeps'.size
    rw [List.length_append, hcount] at hsize'
    omega
  · obtain ⟨p, hp, rfl⟩ := List.mem_map.1 hn
    exact hmade p (List.mem_filter.1 hp).1

/-- A rotation of the root key alone is recognised. -/
theorem Between.rotated {made : Nat} {old new : Record} {id : String} {seen : List String}
    (h : Between keyName name made more old new) (hinj : Function.Injective keyName)
    (hseen : ∀ key ∈ id :: seen, ∃ n < made, key = keyName n) (hturns : rootTurns name more = 1)
    (hroles : ∀ role ∈ rolesTurned name more, old.roles.contains role = true) :
    ∃ state, RootState.rotated ⟨old.keys.size, id⟩ new.seen seen = .ok state := by
  obtain ⟨n, hroots⟩ := List.length_eq_one_iff.1 (h.turns.trans hturns)
  obtain ⟨old', -, htrusted⟩ := h.trusted
  rw [hroots, if_neg (List.cons_ne_nil n [])] at htrusted
  obtain ⟨m, hm, hnew⟩ := htrusted
  obtain rfl := List.mem_singleton.1 hm
  have hfresh : keyName m ∉ id :: seen := by
    intro hmem
    obtain ⟨j, hj, hname⟩ := hseen _ hmem
    have hmade := h.fresh m (by simp [hroots])
    have hsame := hinj hname
    omega
  rw [List.mem_cons, not_or] at hfresh
  have hsize := h.size
  have hsame := h.roles.2.2 hroles
  exact ⟨_, (rotated_seen_iff hnew).2 ⟨by dsimp only; omega, hfresh.1, hfresh.2, rfl⟩⟩

/-- Nothing else is. -/
theorem Between.of_rotated {made : Nat} {old new : Record} {id : String} {seen : List String}
    {state : RootState} (h : Between keyName name made more old new)
    (hid : old.roles.get? "root" = some [id])
    (hstate : RootState.rotated ⟨old.keys.size, id⟩ new.seen seen = .ok state) :
    rootTurns name more = 1 ∧
      (∀ role ∈ rolesTurned name more, old.roles.contains role = true) ∧
        state.keyCount = new.keys.size ∧ ∃ n, made ≤ n ∧ rootsMade name more = [n] ∧
          state.rootKey = keyName n := by
  obtain ⟨id', hid', htrusted⟩ := h.trusted
  obtain rfl : id = id' := (List.cons.inj (Option.some.inj (hid.symm.trans hid'))).1
  have hturns := h.turns
  split at htrusted
  · -- The root key is the same as before.
    exact absurd rfl ((rotated_seen_iff htrusted).1 hstate).2.1
  · rename_i hne
    obtain ⟨n, hn, hnew⟩ := htrusted
    obtain ⟨hcount, -, -, rfl⟩ := (rotated_seen_iff hnew).1 hstate
    dsimp only at hcount
    have hpos := List.length_pos_iff.2 hne
    have hsize := h.size
    have hroles := h.roles
    have hone : rootTurns name more = 1 := by omega
    refine ⟨hone, hroles.2.1 (by omega), rfl, n, h.fresh n hn, ?_, rfl⟩
    obtain ⟨m, hroots⟩ := List.length_eq_one_iff.1 (hturns.trans hone)
    rw [hroots] at hn ⊢
    rw [List.mem_singleton.1 hn]

/-- A root key that was trusted at a moment on the way has been made before. -/
theorem Annals.made_before (hinj : Function.Injective keyName) (hs : s.Upheld keyName shelf repo)
    (h : Annals keyName shelf s pages t) {r : Record} {id : String}
    (htells : TellsRecord (t.disk.content (recordPlace shelf repo)) r)
    (hid : r.roles.get? "root" = some [id]) (hlater : Annals keyName shelf t more u) :
    ∃ n < u.made, id = keyName n := by
  have ht := (h.upheld hinj hs).1
  obtain ⟨-, roles, roots, hkeeps⟩ := ht.keeps htells
  obtain ⟨older, n, rfl, hlatest⟩ := hkeeps.latest
  rw [hid] at hlatest
  refine ⟨n, Nat.lt_of_lt_of_le (hkeeps.issued hinj (by simp)) (hlater.upheld hinj ht).2, ?_⟩
  exact (List.cons.inj (Option.some.inj hlatest)).1

/-- The judgement of a trial about any two moments of a server: there was a rotation if and only if
the root key was rotated exactly once and no other rotation was for a role that had no key before.
Up to the first moment anything may have happened, and any writing may have failed. `seen` are root
keys that were trusted at the first moment or earlier. -/
theorem Chronicle.rotation_recognised (hinj : Function.Injective keyName) (hs : s.disk.Regular)
    (hempty : s.disk.content (recordPlace shelf repo) = none)
    (hbefore : Annals keyName shelf s pages t) (hafter : Chronicle keyName shelf t more u)
    {old : Record} (hold : TellsRecord (t.disk.content (recordPlace shelf repo)) old)
    {seen : List String}
    (hseen : ∀ id ∈ seen, ∃ earlier later m r, Annals keyName shelf s earlier m ∧
      Annals keyName shelf m later t ∧
        TellsRecord (m.disk.content (recordPlace shelf repo)) r ∧ r.roles.get? "root" = some [id]) :
    ∃ (new : Record) (before : RootState),
      u.disk.content (recordPlace shelf repo) = some new.printed ∧
      (∀ p ∈ more.getLast?, p.done = true → p.errand.shows? = some repo →
        Shows (u.disk.content (rootPlace p.home repo)) new.seen) ∧
      RootState.capture old.seen = .ok before ∧
      ((∃ state, before.rotated new.seen seen = .ok state) ↔
        rootTurns (recordName repo) more = 1 ∧
          ∀ role ∈ rolesTurned (recordName repo) more, old.roles.contains role = true) ∧
      ∀ state, before.rotated new.seen seen = .ok state →
        state.keyCount = new.keys.size ∧ ∃ n, t.made ≤ n ∧
          rootsMade (recordName repo) more = [n] ∧ state.rootKey = keyName n := by
  have hstart : s.Upheld keyName shelf repo := upheld_of_none hs hempty
  have ht := (hbefore.upheld hinj hstart).1
  obtain ⟨new, hcontent, hversion, hbetween, hshows⟩ := hafter.between hinj ht hold
  obtain ⟨id, hid, -⟩ := hbetween.trusted
  -- At no time up to then has a key been trusted that was made later.
  have hbound : ∀ key ∈ id :: seen, ∃ n < t.made, key = keyName n := by
    rw [List.forall_mem_cons]
    refine ⟨hbefore.made_before hinj hstart hold hid .nil, fun key hkey => ?_⟩
    obtain ⟨earlier, later, m, r, hearlier, hlater, htells, hlatest⟩ := hseen key hkey
    exact hearlier.made_before hinj hstart htells hlatest hlater
  refine ⟨new, ⟨old.keys.size, id⟩, hcontent, ?_, capture_seen hid, ⟨?_, ?_⟩, ?_⟩
  · intro p hp hdone hroot
    rw [hshows p hp hdone hroot]
    exact shows_printedRoot hversion
  · rintro ⟨state, hstate⟩
    obtain ⟨hturns, hroles, -⟩ := hbetween.of_rotated hid hstate
    exact ⟨hturns, hroles⟩
  · rintro ⟨hturns, hroles⟩
    exact hbetween.rotated hinj hbound hturns hroles
  · intro state hstate
    exact (hbetween.of_rotated hid hstate).2.2

end Recognition

/-- The rotation of the demonstration is recognised, with the key of the foundation among those seen. -/
theorem rotation_recognised_demo : ∃ (t u : Store) (new : Record) (before state : RootState),
    Chronicle Main.keyName ["srv"] ⟨0, demoTree⟩ [demoFounding] t ∧
      Chronicle Main.keyName ["srv"] t [demoTurn t] u ∧
      RootState.capture demoRecord.seen = .ok before ∧
      before.rotated new.seen [Main.keyName 0] = .ok state ∧
      u.disk.content (recordPlace ["srv"] "demo") = some new.printed := by
  obtain ⟨t, u, hfounding, hcontent, hturn, -⟩ := demo_history
  have htells : TellsRecord (t.disk.content (recordPlace ["srv"] "demo")) demoRecord := by
    rw [hcontent]
    exact ⟨_, _, rfl, Text.fromUTF8?_toUTF8 _, readAs_record bounded_demoRecord⟩
  have htrusted : demoRecord.roles.get? "root" = some [Main.keyName 0] := by decide +kernel
  have hseen : ∀ id ∈ [Main.keyName 0], ∃ earlier later m r,
      Annals Main.keyName ["srv"] ⟨0, demoTree⟩ earlier m ∧ Annals Main.keyName ["srv"] m later t ∧
        TellsRecord (m.disk.content (recordPlace ["srv"] "demo")) r ∧
          r.roles.get? "root" = some [id] := by
    intro id hid
    rw [List.mem_singleton.1 hid]
    exact ⟨[demoFounding], [], t, demoRecord, hfounding.annals, .nil, htells, htrusted⟩
  obtain ⟨new, before, hnew, -, hbefore, hiff, -⟩ := Chronicle.rotation_recognised
    (Text.hexadecimal_injective 32) regular_demoTree rfl hfounding.annals hturn htells hseen
  have hroles : ∀ role ∈ rolesTurned (recordName "demo") [demoTurn t],
      demoRecord.roles.contains role = true := by
    rw [show rolesTurned (recordName "demo") [demoTurn t] = ["root"] from rfl,
      List.forall_mem_singleton, Dict.contains, htrusted]
    rfl
  obtain ⟨state, hstate⟩ := hiff.2 ⟨rfl, hroles⟩
  exact ⟨t, u, new, before, state, hfounding, hturn, hbefore, hstate, hnew⟩

end Notary
end TrustTrial
