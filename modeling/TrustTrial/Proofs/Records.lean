import TrustTrial.Proofs.Commands
import TrustTrial.Proofs.Dicts
import TrustTrial.Rotation

/-!
# TrustTrial.Proofs.Records

What commands make of a record and of the keys of a client. `Record.Settled` is the invariant of
the record: every role trusts exactly one key, which was made for it, and all keys it knows have
been made before. `Keyring` is that of the client that owns the repository: its root keys, in the
order in which they were made.

Ids are told apart by their numbers, so everything here needs a naming that is injective.
-/

namespace TrustTrial
namespace Notary

open Text

section Records

variable {keyName : Nat → String} {made made' turns version : Nat} {ruled ruled' : List String}
  {r : Record} {role : String} {targets : Dict Target}

/-! ## Trusted keys -/

/-- Some roles trust one key each, and all keys are among the first `made`. -/
structure Record.Ruled (keyName : Nat → String) (made : Nat) (ruled : List String) (r : Record) :
    Prop where
  trusted : ∀ role ∈ ruled, ∃ j < made, r.roles.get? role = some [keyName j] ∧
    r.keys.get? (keyName j) = some role
  issued : ∀ id role, r.keys.get? id = some role → ∃ j < made, id = keyName j

theorem ruled_empty : Record.empty.Ruled keyName made [] :=
  ⟨by simp, by simp [Record.empty]⟩

theorem Record.Ruled.mono (h : r.Ruled keyName made ruled) (hmade : made ≤ made')
    (hruled : ∀ role ∈ ruled', role ∈ ruled) : r.Ruled keyName made' ruled' := by
  refine ⟨fun role hrole => ?_, fun id role hid => ?_⟩
  · obtain ⟨j, hj, hkey⟩ := h.trusted role (hruled role hrole)
    exact ⟨j, by omega, hkey⟩
  · obtain ⟨j, hj, hid⟩ := h.issued id role hid
    exact ⟨j, by omega, hid⟩

/-- The next key is new. -/
theorem Record.Ruled.fresh (hinj : Function.Injective keyName) (h : r.Ruled keyName made ruled) :
    r.keys.get? (keyName made) = none := by
  cases hkey : r.keys.get? (keyName made) with
  | none => rfl
  | some role =>
    obtain ⟨j, hj, hid⟩ := h.issued _ _ hkey
    exact absurd (hinj hid) (by omega)

theorem Record.Ruled.trust (hinj : Function.Injective keyName) (h : r.Ruled keyName made ruled)
    (role : String) : (r.trust role (keyName made)).Ruled keyName (made + 1) (role :: ruled) := by
  refine ⟨fun other hother => ?_, fun id other hid => ?_⟩
  · by_cases hrole : other = role
    · refine ⟨made, by omega, ?_, ?_⟩
      · simp [Record.trust, hrole]
      · simp [Record.trust, hrole]
    · obtain ⟨j, hj, htrusted, hkey⟩ := h.trusted other ((List.mem_cons.1 hother).resolve_left hrole)
      have hne : keyName j ≠ keyName made := fun he => absurd (hinj he) (by omega)
      refine ⟨j, by omega, ?_, ?_⟩
      · simp only [Record.trust, Dict.get?_insert, if_neg hrole, htrusted]
      · simp only [Record.trust, Dict.get?_insert, if_neg hne, hkey]
  · simp only [Record.trust, Dict.get?_insert] at hid
    split at hid
    · rename_i he
      exact ⟨made, by omega, he⟩
    · obtain ⟨j, hj, he⟩ := h.issued id other hid
      exact ⟨j, by omega, he⟩

theorem Record.Ruled.size_trust (hinj : Function.Injective keyName)
    (h : r.Ruled keyName made ruled) (role : String) :
    (r.trust role (keyName made)).keys.size = r.keys.size + 1 :=
  Dict.size_insert role (h.fresh hinj)

theorem Record.dropKeys_eq {id : String} (h : r.roles.get? role = some [id]) :
    r.dropKeys role = { r with keys := r.keys.erase id } := by
  simp [Record.dropKeys, h]

/-- A role that trusts a key does so for itself alone. -/
theorem Record.Ruled.dropKeys (h : r.Ruled keyName made ruled) (hrole : role ∈ ruled) :
    (r.dropKeys role).Ruled keyName made (ruled.filter (· ≠ role)) := by
  obtain ⟨i, hi, htrusted, hkey⟩ := h.trusted role hrole
  rw [Record.dropKeys_eq htrusted]
  refine ⟨fun other hother => ?_, fun id other hid => ?_⟩
  · obtain ⟨hmem, hne⟩ := List.mem_filter.1 hother
    obtain ⟨j, hj, htrusted', hkey'⟩ := h.trusted other hmem
    refine ⟨j, hj, htrusted', ?_⟩
    rw [Dict.get?_erase, if_neg, hkey']
    intro he
    rw [he, hkey] at hkey'
    cases hkey'
    simp at hne
  · rw [Dict.get?_erase] at hid
    split at hid
    · cases hid
    · exact h.issued id other hid

theorem Record.Ruled.size_dropKeys (h : r.Ruled keyName made ruled) (hrole : role ∈ ruled) :
    (r.dropKeys role).keys.size + 1 = r.keys.size := by
  obtain ⟨j, -, htrusted, hkey⟩ := h.trusted role hrole
  rw [Record.dropKeys_eq htrusted]
  exact Dict.size_erase (by simp [Dict.contains, hkey])

/-! ## Settled records -/

/-- A record of an initialized repository, whose root key has been rotated a number of times. -/
structure Record.Settled (keyName : Nat → String) (made turns : Nat) (targets : Dict Target)
    (version : Nat) (r : Record) : Prop where
  ruled : r.Ruled keyName made firstRoles
  roles : r.roles.keys = ["root", "snapshot", "targets", "timestamp"]
  size : r.keys.size = 4 + turns
  targets : r.targets = targets
  version : r.version = version

theorem settled_founding (hinj : Function.Injective keyName) (repo : String) (made : Nat)
    (keys : List LocalKey) :
    (madeKeys keyName repo firstRoles made .empty keys).1.bump.Settled keyName (made + 4) 0 .empty
      1 := by
  have hempty : Record.empty.Ruled keyName made [] := ruled_empty
  have hroot := hempty.trust hinj "root"
  have htargets := hroot.trust hinj "targets"
  have hsnapshot := htargets.trust hinj "snapshot"
  have htimestamp := hsnapshot.trust hinj "timestamp"
  have hsize := hsnapshot.size_trust hinj "timestamp"
  rw [htargets.size_trust hinj, hroot.size_trust hinj, hempty.size_trust hinj] at hsize
  refine ⟨⟨fun role hrole => htimestamp.trusted role ?_, htimestamp.issued⟩, ?_, hsize, rfl, rfl⟩
  · revert hrole
    revert role
    decide
  · simp only [madeKeys, firstRoles, Record.trust, Record.bump, Record.empty, Dict.insert, Dict.keys,
      Dict.empty, placeEntry, String.reduceLT, String.reduceEq, if_true, if_false, List.map_cons,
      List.map_nil]

theorem Record.Settled.contains (h : r.Settled keyName made turns targets version)
    (hrole : role ∈ firstRoles) : r.roles.contains role = true := by
  obtain ⟨j, -, htrusted, -⟩ := h.ruled.trusted role hrole
  simp [Dict.contains, htrusted]

/-- A further key for a role that has been given up, or for the root role. -/
theorem Record.Settled.trust (hinj : Function.Injective keyName)
    (h : r.Settled keyName made turns targets version) :
    (r.trust "root" (keyName made)).bump.Settled keyName (made + 1) (turns + 1) targets
      (version + 1) := by
  have hrole : "root" ∈ firstRoles := by decide
  have hsize := h.ruled.size_trust hinj "root"
  have hruled := (h.ruled.trust hinj "root").mono (Nat.le_refl _)
    fun _ hmem => List.mem_cons_of_mem _ hmem
  refine ⟨⟨hruled.trusted, hruled.issued⟩, ?_, ?_, h.targets, congrArg (· + 1) h.version⟩
  · exact (Dict.keys_insert _ (h.contains hrole)).trans h.roles
  · rw [← Nat.add_assoc, ← h.size]
    exact hsize

theorem Record.Settled.replace (hinj : Function.Injective keyName)
    (h : r.Settled keyName made turns targets version) (hrole : role ∈ firstRoles) :
    ((r.dropKeys role).trust role (keyName made)).bump.Settled keyName (made + 1) turns targets
      (version + 1) := by
  have hdropped := h.ruled.dropKeys hrole
  have hsize := hdropped.size_trust hinj role
  rw [h.ruled.size_dropKeys hrole, h.size] at hsize
  have hruled :
      ((r.dropKeys role).trust role (keyName made)).Ruled keyName (made + 1) firstRoles := by
    refine (hdropped.trust hinj role).mono (Nat.le_refl _) fun other hother => ?_
    by_cases he : other = role
    · exact he ▸ List.mem_cons_self
    · exact List.mem_cons_of_mem _ (List.mem_filter.2 ⟨hother, decide_eq_true he⟩)
  refine ⟨⟨hruled.trusted, hruled.issued⟩, ?_, hsize, h.targets, congrArg (· + 1) h.version⟩
  exact (Dict.keys_insert _ (h.contains hrole)).trans h.roles

theorem Record.Settled.publish (h : r.Settled keyName made turns targets version)
    (staged : List Staged) :
    (r.publish staged).bump.Settled keyName made turns
      (staged.foldl (fun d s => d.insert s.name s.target) targets) (version + 1) := by
  refine ⟨⟨h.ruled.trusted, h.ruled.issued⟩, h.roles, h.size, ?_, congrArg (· + 1) h.version⟩
  rw [← h.targets]
  rfl

theorem Record.Settled.bounded (h : r.Settled keyName made turns targets version)
    (hversion : version ≤ maxWord) (htargets : ∀ e ∈ targets.toList, e.2.size ≤ maxWord) :
    r.Bounded :=
  ⟨h.version ▸ hversion, h.targets ▸ htargets⟩

/-! ## What a trial makes of them -/

theorem capture_seen {id : String} (h : r.roles.get? "root" = some [id]) :
    RootState.capture r.seen = .ok ⟨r.keys.size, id⟩ := by
  simp [RootState.capture, RootDocument.singleRootKey, rootRole, h]

/-- A trial finds one root key, which has been made before. -/
theorem Record.Settled.capture (h : r.Settled keyName made turns targets version) :
    ∃ j < made, RootState.capture r.seen = .ok ⟨4 + turns, keyName j⟩ := by
  obtain ⟨j, hj, htrusted, -⟩ := h.ruled.trusted "root" (by decide)
  exact ⟨j, hj, by rw [capture_seen htrusted, h.size]⟩

/-- A trial is content with a rotation, if all keys seen before have been made before. -/
theorem Record.Settled.rotated (hinj : Function.Injective keyName)
    (h : r.Settled keyName made turns targets version) {i : Nat} (hi : i < made)
    {known : List String} (hknown : ∀ key ∈ known, ∃ j < made, key = keyName j) :
    RootState.rotated ⟨4 + turns, keyName i⟩ (r.trust "root" (keyName made)).bump.seen known =
      .ok ⟨4 + turns + 1, keyName made⟩ := by
  have hsize : (r.trust "root" (keyName made)).bump.seen.keyCount = 4 + turns + 1 := by
    rw [keyCount_seen]
    exact (h.trust hinj).size
  have htrusted : (r.trust "root" (keyName made)).bump.roles.get? "root" =
      some [keyName made] := by
    simp [Record.bump, Record.trust]
  have hcapture : RootState.capture (r.trust "root" (keyName made)).bump.seen =
      .ok ⟨4 + turns + 1, keyName made⟩ := by
    rw [capture_seen htrusted, ← hsize, keyCount_seen]
  have hother : keyName made ≠ keyName i := fun he => absurd (hinj he) (by omega)
  have hnew : known.contains (keyName made) = false := by
    rw [← Bool.not_eq_true, List.contains_iff_mem]
    intro hmem
    obtain ⟨j, hj, he⟩ := hknown _ hmem
    exact absurd (hinj he) (by omega)
  simp only [RootState.rotated, hsize, hcapture, ne_eq, not_true_eq_false, if_false, hother, hnew,
    Bool.false_eq_true]

end Records

/-! ## Keyrings -/

/-- A root key of a client. -/
def rootKeyOf (keyName : Nat → String) (j : Nat) : LocalKey := ⟨"root", "", keyName j⟩

/-- The keys of a client whose root keys are those with the given numbers. -/
structure Keyring (keyName : Nat → String) (made : Nat) (roots : List Nat) (keys : List LocalKey) :
    Prop where
  listable : ∀ k ∈ keys, k.Listable
  issued : ∀ j ∈ roots, j < made
  roots : keys.filter (fun k => k.role = rootRole) = roots.map (rootKeyOf keyName)

section Keyrings

variable {keyName : Nat → String} {made : Nat} {roots : List Nat} {keys : List LocalKey}
  {repo directory : String}

theorem keyring_founding (hnames : ∀ n, Wordy (keyName n)) (hrepo : '\n' ∉ repo.toList)
    (made : Nat) :
    Keyring keyName (made + 4) [made]
      (madeKeys keyName repo firstRoles made .empty []).2 := by
  have hkeys : (madeKeys keyName repo firstRoles made .empty []).2 =
      [rootKeyOf keyName made, ⟨"targets", repo, keyName (made + 1)⟩,
        ⟨"snapshot", repo, keyName (made + 2)⟩] := rfl
  have htargets : Wordy "targets" := by decide
  have hsnapshot : Wordy "snapshot" := by decide
  have hroot : Wordy "root" := by decide
  rw [hkeys]
  refine ⟨?_, by simp, rfl⟩
  intro k hk
  simp only [List.mem_cons, List.not_mem_nil, or_false] at hk
  rcases hk with rfl | rfl | rfl
  · exact ⟨hroot, by simp [rootKeyOf], hnames _⟩
  · exact ⟨htargets, hrepo, hnames _⟩
  · exact ⟨hsnapshot, hrepo, hnames _⟩

theorem Keyring.without (h : Keyring keyName made roots keys) {role : String}
    (hrole : role ≠ rootRole) (repo : String) :
    Keyring keyName (made + 1) roots (keysWithout role repo keys) := by
  refine ⟨fun k hk => h.listable k (List.mem_filter.1 hk).1, fun j hj => ?_, ?_⟩
  · have := h.issued j hj
    omega
  · rw [← h.roots, keysWithout, List.filter_filter]
    refine List.filter_congr fun k _ => ?_
    by_cases hroot : k.role = rootRole
    · simp [hroot, hrole.symm]
    · simp [hroot]

theorem Keyring.rotate (hnames : ∀ n, Wordy (keyName n)) (h : Keyring keyName made roots keys) :
    Keyring keyName (made + 1) (roots ++ [made]) (keys ++ [⟨"root", "", keyName made⟩]) := by
  have hroot : Wordy "root" := by decide
  refine ⟨List.forall_mem_append.2 ⟨h.listable, ?_⟩, List.forall_mem_append.2 ⟨?_, by simp⟩, ?_⟩
  · intro k hk
    rw [List.mem_singleton.1 hk]
    exact ⟨hroot, by simp, hnames _⟩
  · intro j hj
    have := h.issued j hj
    omega
  · rw [List.filter_append, h.roots, List.map_append]
    rfl

/-- The row of a root key. -/
def rootRow (keyName : Nat → String) (directory : String) (j : Nat) : KeyRow :=
  keyRowOf directory (rootKeyOf keyName j)

theorem rootRow_inj (hinj : Function.Injective keyName) (hnames : ∀ n, Wordy (keyName n))
    {i j : Nat} (h : (rootRow keyName directory i).line = (rootRow keyName directory j).line) :
    i = j := by
  have hroot : Wordy "root" := by decide
  have hsolid : ∀ n, (rootKeyOf keyName n).Solid := fun n => ⟨hroot, .inl rfl, hnames n⟩
  exact hinj (congrArg LocalKey.id (eq_of_line_eq (hsolid i) (hsolid j) h))

/-- The root rows of the key table. -/
theorem Keyring.rootRows (h : Keyring keyName made roots keys) (hdir : '\n' ∉ directory.toList) :
    KeyListing.rootRows (KeyListing.read (keyTable directory keys)) =
      roots.map (rootRow keyName directory) := by
  have hrole : rootRole ∉ ["ROLE", "----"] := by decide
  rw [KeyListing.rootRows, ofRole_keyTable hdir h.listable hrole, h.roots, List.map_map]
  rfl

/-- After a rotation there is one new root row, if all rows before it are known and none but
those of keys made before. -/
theorem Keyring.newRootRows (hinj : Function.Injective keyName) (hnames : ∀ n, Wordy (keyName n))
    (h : Keyring keyName made roots keys) (hdir : '\n' ∉ directory.toList) {known : List String}
    (hcurrent : ∀ j ∈ roots, (rootRow keyName directory j).line ∈ known)
    (hknown : ∀ line ∈ known, ∃ j < made, line = (rootRow keyName directory j).line) :
    KeyListing.newRootRows known
        (KeyListing.read (keyTable directory (keys ++ [⟨"root", "", keyName made⟩]))) =
      [rootRow keyName directory made] := by
  have hold : (roots.map (rootRow keyName directory)).filter
      (fun row => !known.contains row.line) = [] := by
    rw [List.filter_eq_nil_iff]
    intro row hrow
    obtain ⟨j, hj, rfl⟩ := List.mem_map.1 hrow
    simpa using hcurrent j hj
  have hnew : known.contains (rootRow keyName directory made).line = false := by
    rw [← Bool.not_eq_true, List.contains_iff_mem]
    intro hmem
    obtain ⟨j, hj, he⟩ := hknown _ hmem
    exact absurd (rootRow_inj hinj hnames he) (by omega)
  rw [KeyListing.newRootRows, (h.rotate hnames).rootRows hdir, List.map_append, List.filter_append,
    hold, List.map_singleton, List.nil_append, List.filter_cons_of_pos (by rw [hnew]; rfl)]
  rfl

end Keyrings

end Notary
end TrustTrial
