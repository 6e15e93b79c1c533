import TrustTrial.Proofs.Chronicles
import TrustTrial.Proofs.Records

/-!
# TrustTrial.Proofs.Keyholding

The keys of a record, through any history of requests. Root keys and other keys are treated in
opposite ways: a root key stays known for ever, another key is forgotten when its role gets a new
one. `Record.Keeps` is the invariant that both ways keep; it counts the roles and the root keys, and
so the keys.
-/

namespace TrustTrial
namespace Notary

open Disk

/-! ## Records -/

/-- Every role trusts one key, which was made for it; of keys for other roles than the root role
there are no more; the root keys are those with the numbers in `roots`, the last of which is
trusted. The version is a number of 64 bits. -/
structure Record.Keeps (keyName : Nat → String) (made : Nat) (roles : List String)
    (roots : List Nat) (r : Record) : Prop where
  ruled : r.Ruled keyName made roles
  ruling : ∀ role, r.roles.contains role = true ↔ role ∈ roles
  others : ∀ id role, r.keys.get? id = some role → role ≠ "root" → r.roles.get? role = some [id]
  known : ∀ id, r.keys.get? id = some "root" ↔ ∃ n ∈ roots, id = keyName n
  ascending : roots.Pairwise (· < ·)
  latest : ∃ older n, roots = older ++ [n] ∧ r.roles.get? "root" = some [keyName n]
  size : r.keys.size + 1 = r.roles.size + roots.length
  version_le : r.version ≤ Text.maxWord

section Records

variable {keyName : Nat → String} {made made' : Nat} {roles roles' : List String}
  {roots : List Nat} {r : Record} {role : String}

theorem Record.Keeps.root_mem (h : r.Keeps keyName made roles roots) : "root" ∈ roles := by
  obtain ⟨older, n, -, htrusted⟩ := h.latest
  rw [← h.ruling, Dict.contains, htrusted]
  rfl

theorem Record.Keeps.mono (h : r.Keeps keyName made roles roots) (hmade : made ≤ made')
    (hroles : ∀ role, role ∈ roles' ↔ role ∈ roles) : r.Keeps keyName made' roles' roots := by
  refine ⟨h.ruled.mono hmade fun role hrole => (hroles role).1 hrole, fun role => ?_, h.others,
    h.known, h.ascending, h.latest, h.size, h.version_le⟩
  rw [h.ruling, hroles]

theorem Record.Keeps.bump (h : r.Keeps keyName made roles roots)
    (hversion : r.version < Text.maxWord) : r.bump.Keeps keyName made roles roots :=
  ⟨⟨h.ruled.trusted, h.ruled.issued⟩, h.ruling, h.others, h.known, h.ascending,
    h.latest, h.size, hversion⟩

theorem Record.Keeps.publish (h : r.Keeps keyName made roles roots) (staged : List Staged) :
    (r.publish staged).Keeps keyName made roles roots :=
  ⟨⟨h.ruled.trusted, h.ruled.issued⟩, h.ruling, h.others, h.known, h.ascending,
    h.latest, h.size, h.version_le⟩

/-- The root keys have been made before. -/
theorem Record.Keeps.issued (hinj : Function.Injective keyName)
    (h : r.Keeps keyName made roles roots) {n : Nat} (hn : n ∈ roots) : n < made := by
  obtain ⟨j, hj, hname⟩ := h.ruled.issued _ _ ((h.known (keyName n)).2 ⟨n, hn, rfl⟩)
  rw [hinj hname]
  exact hj

theorem keeps_first (hinj : Function.Injective keyName) (made : Nat) :
    (Record.empty.trust "root" (keyName made)).Keeps keyName (made + 1) ["root"] [made] := by
  have hempty : Record.empty.Ruled keyName made [] := ruled_empty
  refine ⟨hempty.trust hinj "root", fun role => ?_, ?_, fun id => ?_,
    List.pairwise_singleton _ _, ⟨[], made, rfl, ?_⟩, rfl, Nat.zero_le _⟩
  · rw [Record.trust, Dict.contains_insert, List.mem_singleton]
    simp [Record.empty, Dict.contains]
  · intro id role hkey hrole
    simp only [Record.trust, Record.empty, Dict.get?_insert, Dict.get?_empty] at hkey
    split at hkey
    · exact absurd (Option.some.inj hkey).symm hrole
    · cases hkey
  · simp [Record.trust, Record.empty, Dict.get?_insert]
  · simp [Record.trust]

/-- A key for a role that has had none. -/
theorem Record.Keeps.trust_new (hinj : Function.Injective keyName)
    (h : r.Keeps keyName made roles roots) (hrole : role ∉ roles) :
    (r.trust role (keyName made)).Keeps keyName (made + 1) (role :: roles) roots := by
  have hfresh := h.ruled.fresh hinj
  have hroot : role ≠ "root" := fun he => hrole (he ▸ h.root_mem)
  have hnone : r.roles.get? role = none := by
    cases hget : r.roles.get? role with
    | none => rfl
    | some ids =>
      refine absurd ((h.ruling role).1 ?_) hrole
      rw [Dict.contains, hget]
      rfl
  refine ⟨h.ruled.trust hinj role, fun other => ?_, ?_, fun id => ?_, h.ascending, ?_, ?_,
    h.version_le⟩
  · rw [Record.trust, Dict.contains_insert, List.mem_cons, h.ruling]
  · intro id other hkey hother
    simp only [Record.trust, Dict.get?_insert] at hkey ⊢
    split at hkey
    · rename_i hid
      rw [if_pos (Option.some.inj hkey).symm, hid]
    · have htrusted := h.others id other hkey hother
      rw [if_neg, htrusted]
      rintro rfl
      rw [hnone] at htrusted
      cases htrusted
  · rw [← h.known, Record.trust, Dict.get?_insert]
    split
    · rename_i hid
      rw [hid, hfresh]
      simp [hroot]
    · rfl
  · obtain ⟨older, n, hroots, htrusted⟩ := h.latest
    refine ⟨older, n, hroots, ?_⟩
    rw [Record.trust, Dict.get?_insert, if_neg hroot.symm, htrusted]
  · have hkeys : (r.trust role (keyName made)).keys.size = r.keys.size + 1 :=
      h.ruled.size_trust hinj role
    have hsize : (r.trust role (keyName made)).roles.size = r.roles.size + 1 :=
      Dict.size_insert _ hnone
    have hcount := h.size
    omega

/-- A further root key. -/
theorem Record.Keeps.trust_root (hinj : Function.Injective keyName)
    (h : r.Keeps keyName made roles roots) :
    (r.trust "root" (keyName made)).Keeps keyName (made + 1) roles (roots ++ [made]) := by
  have hroot := h.root_mem
  have hcontains := (h.ruling "root").2 hroot
  refine ⟨(h.ruled.trust hinj "root").mono (Nat.le_refl _) fun _ hmem => List.mem_cons_of_mem _ hmem,
    fun other => ?_, ?_, fun id => ?_, ?_, ⟨roots, made, rfl, ?_⟩, ?_, h.version_le⟩
  · rw [Record.trust, Dict.contains_insert, h.ruling]
    exact or_iff_right_of_imp fun he => he ▸ hroot
  · intro id other hkey hother
    simp only [Record.trust, Dict.get?_insert] at hkey ⊢
    split at hkey
    · exact absurd (Option.some.inj hkey).symm hother
    · rw [if_neg hother]
      exact h.others id other hkey hother
  · rw [Record.trust, Dict.get?_insert]
    split
    · rename_i hid
      simp [hid]
    · rename_i hid
      rw [h.known]
      simp [hid]
  · rw [List.pairwise_append]
    refine ⟨h.ascending, List.pairwise_singleton _ _, fun n hn m hm => ?_⟩
    rw [List.mem_singleton.1 hm]
    exact h.issued hinj hn
  · simp [Record.trust]
  · have hkeys : (r.trust "root" (keyName made)).keys.size = r.keys.size + 1 :=
      h.ruled.size_trust hinj "root"
    have hsize : (r.trust "root" (keyName made)).roles.size = r.roles.size :=
      Dict.size_insert_of_contains _ hcontains
    have hcount := h.size
    rw [List.length_append, List.length_singleton]
    omega

/-- A key in the place of another one. -/
theorem Record.Keeps.replace (hinj : Function.Injective keyName)
    (h : r.Keeps keyName made roles roots) (hrole : role ∈ roles) (hroot : role ≠ "root") :
    ((r.dropKeys role).trust role (keyName made)).Keeps keyName (made + 1) roles roots := by
  obtain ⟨j, hj, htrusted, hkey⟩ := h.ruled.trusted role hrole
  have hdropped := h.ruled.dropKeys hrole
  have hfresh := hdropped.fresh hinj
  have hkeys : ((r.dropKeys role).trust role (keyName made)).keys.size + 1 = r.keys.size + 1 := by
    rw [hdropped.size_trust hinj role, h.ruled.size_dropKeys hrole]
  rw [Record.dropKeys_eq htrusted] at hdropped hfresh hkeys ⊢
  refine ⟨?_, fun other => ?_, ?_, fun id => ?_, h.ascending, ?_, ?_, h.version_le⟩
  · refine (hdropped.trust hinj role).mono (Nat.le_refl _) fun other hother => ?_
    by_cases he : other = role
    · exact he ▸ List.mem_cons_self
    · exact List.mem_cons_of_mem _ (List.mem_filter.2 ⟨hother, decide_eq_true he⟩)
  · rw [Record.trust, Dict.contains_insert, h.ruling]
    exact or_iff_right_of_imp fun he => he ▸ hrole
  · intro id other hid hother
    simp only [Record.trust, Dict.get?_insert, Dict.get?_erase] at hid ⊢
    split at hid
    · rename_i he
      rw [if_pos (Option.some.inj hid).symm, he]
    · split at hid
      · cases hid
      · rename_i hold
        have hothers := h.others id other hid hother
        rw [if_neg, hothers]
        -- The only key of the role itself is the one that is given up.
        rintro rfl
        rw [htrusted] at hothers
        exact hold (List.cons.inj (Option.some.inj hothers)).1.symm
  · rw [← h.known, Record.trust, Dict.get?_insert, Dict.get?_erase]
    split
    · rename_i he
      rw [he]
      have hnone : r.keys.get? (keyName made) = none := h.ruled.fresh hinj
      rw [hnone]
      simp [hroot]
    · split
      · rename_i he
        rw [he, hkey]
        simp [hroot]
      · rfl
  · obtain ⟨older, n, hroots, hlatest⟩ := h.latest
    refine ⟨older, n, hroots, ?_⟩
    rw [Record.trust, Dict.get?_insert, if_neg hroot.symm]
    exact hlatest
  · have hsize : (r.roles.insert role [keyName made]).size = r.roles.size :=
      Dict.size_insert_of_contains _ ((h.ruling role).2 hrole)
    have hcount := h.size
    rw [Record.trust] at hkeys ⊢
    dsimp only at hkeys ⊢
    omega

/-- A rotation keeps the invariant, whichever role it is for. -/
theorem Record.Keeps.rotated (hinj : Function.Injective keyName)
    (h : r.Keeps keyName made roles roots) (hversion : r.version < Text.maxWord) (role : String) :
    (r.rotated role (keyName made)).Keeps keyName (made + 1) (roles ++ [role])
      (if role = "root" then roots ++ [made] else roots) := by
  rw [Record.rotated]
  by_cases hroot : role = "root"
  · rw [if_pos hroot, if_pos hroot, hroot]
    refine ((h.trust_root hinj).bump hversion).mono (Nat.le_refl _) fun other => ?_
    rw [List.mem_append, List.mem_singleton]
    exact or_iff_left_of_imp fun he => he ▸ h.root_mem
  · rw [if_neg hroot, if_neg hroot]
    by_cases hrole : role ∈ roles
    · refine ((h.replace hinj hrole hroot).bump hversion).mono (Nat.le_refl _) fun other => ?_
      rw [List.mem_append, List.mem_singleton]
      exact or_iff_left_of_imp fun he => he ▸ hrole
    · -- A role without a key has none to give up.
      have hnone : r.roles.get? role = none := by
        rw [← Option.not_isSome_iff_eq_none]
        exact fun hsome => hrole ((h.ruling role).1 hsome)
      have hdrop : r.dropKeys role = r := by simp [Record.dropKeys, hnone]
      rw [hdrop]
      refine ((h.trust_new hinj hrole).bump hversion).mono (Nat.le_refl _) fun other => ?_
      rw [List.mem_append, List.mem_singleton, List.mem_cons, or_comm]

/-- The keys of a new record. -/
theorem keeps_founded (hinj : Function.Injective keyName) {repo : String} {keys keys' : List LocalKey}
    (h : madeKeys keyName repo firstRoles made .empty keys = (r, keys')) :
    r.bump.Keeps keyName (made + 4) firstRoles [made] := by
  obtain rfl : ((((Record.empty.trust "root" (keyName made)).trust "targets"
      (keyName (made + 1))).trust "snapshot" (keyName (made + 2))).trust "timestamp"
      (keyName (made + 3))) = r := congrArg Prod.fst h
  have htargets := (keeps_first hinj made).trust_new hinj (show "targets" ∉ _ by decide)
  have hsnapshot := htargets.trust_new hinj (show "snapshot" ∉ _ by decide)
  have htimestamp := hsnapshot.trust_new hinj (show "timestamp" ∉ _ by decide)
  have hversion : 0 < Text.maxWord := by decide
  exact (htimestamp.bump hversion).mono (Nat.le_refl _) fun role => List.Perm.mem_iff (by decide)

end Records

/-! ## Requests -/

namespace Errand

/-- Whether it founds the record of a name. -/
def founds (name : String) : Errand → Bool
  | .init repo => recordName repo = name
  | _ => false

/-- The role whose key it rotates, if that is a role of the record of a name. -/
def turned? (name : String) : Errand → Option String
  | .rotate repo role => if recordName repo = name then some role else none
  | _ => none

end Errand

/-- What an errand makes of a record, and how many keys there are then. -/
inductive Rewrites (keyName : Nat → String) (made : Nat) (name : String) (old : Option Record) :
    Errand → Option Record → Nat → Prop where
  | kept {errand : Errand} {made' : Nat} :
      errand.founds name = false → errand.turned? name = none → made ≤ made' →
      Rewrites keyName made name old errand old made'
  | founded {repo : String} {r : Record} {keys keys' : List LocalKey} :
      recordName repo = name → old = none →
      madeKeys keyName repo firstRoles made .empty keys = (r, keys') →
      Rewrites keyName made name old (.init repo) (some r.bump) (made + 4)
  | published {repo : String} {r : Record} (staged : List Staged) :
      recordName repo = name → old = some r → r.version < Text.maxWord →
      Rewrites keyName made name old (.publish repo) (some (r.publish staged).bump) made
  | rotated {repo role : String} {r : Record} :
      recordName repo = name → old = some r → r.version < Text.maxWord →
      Rewrites keyName made name old (.rotate repo role) (some (r.rotated role (keyName made)))
        (made + 1)

section Requests

variable {keyName : Nat → String} {shelf home : Location} {files : String → Except Fault ByteArray}
  {f f' : Tree.Contents} {made made' : Nat} {errand : Errand} {old : Option Record}

theorem recordPlace_congr {repo repo' : String} (h : recordName repo = recordName repo') :
    recordPlace shelf repo = recordPlace shelf repo' := by rw [recordPlace, recordPlace, h]

/-- Of a printed record nothing else is read. -/
theorem tellsRecord_map {r : Record} (h : TellsRecord (old.map Record.printed) r) : old = some r := by
  cases old with
  | none => exact absurd h tellsRecord_none
  | some r' => rw [tellsRecord_printed h]

/-- An errand that writes a record and copies its root document to the trust directory. The record is
the one that is looked at if it has the name of that one. -/
theorem exists_rewrites_put {repo repo' : String} {r : Record}
    (hold : f (recordPlace shelf repo) = old.map Record.printed)
    (hput : f' (recordPlace shelf repo) =
      f.put (recordPlace shelf repo') (some r.printed) (recordPlace shelf repo))
    (hroot : f' (rootPlace home repo') = some r.printedRoot) (hshows : errand.shows? = some repo')
    (hsame : recordName repo' = recordName repo →
      Rewrites keyName made (recordName repo) old errand (some r) made')
    (hother : recordName repo' ≠ recordName repo →
      Rewrites keyName made (recordName repo) old errand old made') :
    ∃ new, f' (recordPlace shelf repo) = new.map Record.printed ∧
      Rewrites keyName made (recordName repo) old errand new made' ∧
        (errand.shows? = some repo → f' (rootPlace home repo) = new.map Record.printedRoot) := by
  by_cases hname : recordName repo' = recordName repo
  · refine ⟨some r, ?_, hsame hname, fun hshown => ?_⟩
    · rw [hput, recordPlace_congr hname, Tree.Contents.put_self]
      rfl
    · obtain rfl := Option.some.inj (hshows.symm.trans hshown)
      exact hroot
  · refine ⟨old, ?_, hother hname, fun hshown => ?_⟩
    · rw [hput, Tree.Contents.put_of_ne fun he => hname (recordPlace_inj he).symm, hold]
    · exact absurd (congrArg recordName (Option.some.inj (hshows.symm.trans hshown))) hname

/-- An errand that only copies the root document of a record to the trust directory. -/
theorem exists_rewrites_shown {repo repo' : String} {r : Record}
    (hold : f (recordPlace shelf repo) = old.map Record.printed)
    (htells : TellsRecord (f (recordPlace shelf repo')) r)
    (hkept : f' (recordPlace shelf repo) = f (recordPlace shelf repo))
    (hroot : f' (rootPlace home repo') = some r.printedRoot) (hshows : errand.shows? = some repo')
    (hrewrites : Rewrites keyName made (recordName repo) old errand old made') :
    ∃ new, f' (recordPlace shelf repo) = new.map Record.printed ∧
      Rewrites keyName made (recordName repo) old errand new made' ∧
        (errand.shows? = some repo → f' (rootPlace home repo) = new.map Record.printedRoot) := by
  refine ⟨old, hkept.trans hold, hrewrites, fun hshown => ?_⟩
  obtain rfl := Option.some.inj (hshows.symm.trans hshown)
  rw [hold] at htells
  rw [hroot, tellsRecord_map htells]
  rfl

/-- Of the files below the server only one record is written, and its root document is copied to the
trust directory. -/
theorem Performs.rewrites (h : Performs keyName shelf home files f made errand f' made')
    (hapart : Apart shelf home) {repo : String}
    (hold : f (recordPlace shelf repo) = old.map Record.printed) :
    ∃ new, f' (recordPlace shelf repo) = new.map Record.printed ∧
      Rewrites keyName made (recordName repo) old errand new made' ∧
        (errand.shows? = some repo → f' (rootPlace home repo) = new.map Record.printedRoot) := by
  have hbelow := prefix_recordPlace shelf repo
  have hkeys := hapart.ne_keysPlace hbelow
  have hstaged := hapart.ne_stagedPlace hbelow
  have hroot := hapart.ne_rootPlace hbelow
  cases h with
  | @init repo' r keys keys' hnone hmake =>
    refine exists_rewrites_put (r := r.bump) hold ?_ (Tree.Contents.put_self ..) rfl
      (fun hname => ?_) fun hname => .kept (decide_eq_false hname) rfl (Nat.le_add_right _ _)
    · rw [Tree.Contents.put_of_ne (hroot repo'), Tree.Contents.put_of_ne hkeys]
    · rw [recordPlace_congr hname, hold, Option.map_eq_none_iff] at hnone
      exact .founded hname hnone hmake
  | @publish repo' r staged htells hlist hne hversion =>
    refine exists_rewrites_put (r := (r.publish staged).bump) hold ?_ (Tree.Contents.put_self ..)
      rfl (fun hname => ?_) fun hname => .kept rfl rfl (Nat.le_refl _)
    · rw [Tree.Contents.put_of_ne (hroot repo'), Tree.Contents.put_of_ne (hstaged repo')]
    · rw [recordPlace_congr hname, hold] at htells
      exact .published staged hname (tellsRecord_map htells) hversion
  | @rotate repo' role r keys htells hversion =>
    refine exists_rewrites_put (r := r.rotated role (keyName made)) hold ?_
      (Tree.Contents.put_self ..) rfl (fun hname => ?_)
      fun hname => .kept rfl (if_neg hname) (Nat.le_succ _)
    · rw [Tree.Contents.put_of_ne (hroot repo'), Tree.Contents.put_of_ne hkeys]
    · rw [recordPlace_congr hname, hold] at htells
      exact .rotated hname (tellsRecord_map htells) hversion
  | publishNothing htells | list htells =>
    exact exists_rewrites_shown hold htells (Tree.Contents.put_of_ne (hroot _) ..)
      (Tree.Contents.put_self ..) rfl (.kept rfl rfl (Nat.le_refl _))
  | add =>
    refine ⟨old, ?_, .kept rfl rfl (Nat.le_refl _), nofun⟩
    rw [Tree.Contents.put_of_ne (hstaged _), hold]
  | verify | keys | other => exact ⟨old, hold, .kept rfl rfl (Nat.le_refl _), nofun⟩

/-- One request more for a record that is there. -/
theorem Record.Keeps.step (hinj : Function.Injective keyName) {name : String} {roles : List String}
    {roots : List Nat} {r : Record} {new : Option Record} (h : r.Keeps keyName made roles roots)
    (hwrites : Rewrites keyName made name (some r) errand new made') :
    errand.founds name = false ∧ ∃ r', new = some r' ∧
      r'.Keeps keyName made' (roles ++ (errand.turned? name).toList)
        (roots ++ if errand.turned? name = some "root" then [made] else []) := by
  cases hwrites with
  | kept hfounds hturned hmade =>
    refine ⟨hfounds, r, rfl, ?_⟩
    simp only [hturned, Option.toList_none, List.append_nil, reduceCtorEq, if_false]
    exact h.mono hmade fun _ => Iff.rfl
  | founded _ hnone => cases hnone
  | published staged _ hr hversion =>
    obtain rfl := Option.some.inj hr
    refine ⟨rfl, _, rfl, ?_⟩
    simp only [Errand.turned?, Option.toList_none, List.append_nil, reduceCtorEq, if_false]
    exact (h.publish staged).bump hversion
  | @rotated repo role r' hname hr hversion =>
    obtain rfl := Option.some.inj hr
    refine ⟨rfl, _, rfl, ?_⟩
    simp only [Errand.turned?, hname, if_true, Option.toList_some, Option.some.injEq]
    have hrotated := h.rotated hinj hversion role
    by_cases hroot : role = "root"
    · simpa only [hroot, if_true] using hrotated
    · simpa only [hroot, if_false, List.append_nil] using hrotated

end Requests

/-! ## Histories -/

/-- Whether a request has founded the record of a name. -/
def Page.founds (name : String) (p : Page) : Bool := p.done && p.errand.founds name

/-- The role whose key a request has rotated, if it is a role of the record of a name. -/
def Page.turned? (name : String) (p : Page) : Option String :=
  if p.done then p.errand.turned? name else none

/-- Whether a request has made a root key for the record of a name. -/
def Page.makesRoot (name : String) (p : Page) : Bool :=
  p.founds name || p.turned? name = some "root"

/-- The roles of a record whose keys were rotated, one by one. -/
def rolesTurned (name : String) (pages : List Page) : List String :=
  pages.filterMap (Page.turned? name)

/-- How often the root key of a record was rotated. -/
def rootTurns (name : String) (pages : List Page) : Nat := (rolesTurned name pages).count "root"

/-- The numbers of the root keys that were made for a record, in the order in which they were. -/
def rootsMade (name : String) (pages : List Page) : List Nat :=
  (pages.filter (Page.makesRoot name)).map (·.before.made)

theorem rolesTurned_append (name : String) (a b : List Page) :
    rolesTurned name (a ++ b) = rolesTurned name a ++ rolesTurned name b :=
  List.filterMap_append

theorem rolesTurned_snoc (name : String) (pages : List Page) (p : Page) :
    rolesTurned name (pages ++ [p]) = rolesTurned name pages ++ (p.turned? name).toList := by
  rw [rolesTurned_append]
  cases h : p.turned? name <;> simp [rolesTurned, h]

theorem rootsMade_append (name : String) (a b : List Page) :
    rootsMade name (a ++ b) = rootsMade name a ++ rootsMade name b := by
  rw [rootsMade, List.filter_append, List.map_append, rootsMade, rootsMade]

theorem rootsMade_snoc (name : String) (pages : List Page) (p : Page) :
    rootsMade name (pages ++ [p]) = rootsMade name pages ++
      if p.makesRoot name then [p.before.made] else [] := by
  rw [rootsMade_append]
  by_cases h : p.makesRoot name = true <;> simp [rootsMade, h]

/-- A request that founds nothing makes a root key when it rotates one. -/
theorem rootsMade_turned {name : String} {p : Page} (hfounds : p.founds name = false)
    (pages : List Page) :
    rootsMade name (pages ++ [p]) =
        rootsMade name pages ++ (if p.turned? name = some "root" then [p.before.made] else []) ∧
      rootTurns name (pages ++ [p]) =
        rootTurns name pages + if p.turned? name = some "root" then 1 else 0 := by
  constructor
  · simp [rootsMade_snoc, Page.makesRoot, hfounds]
  · rw [rootTurns, rolesTurned_snoc, List.count_append, ← rootTurns]
    cases hturned : p.turned? name with
    | none => rfl
    | some role => by_cases hroot : role = "root" <;> simp [hroot]

/-- The record of a repository, if it has one, and what has been done to it. -/
inductive Kept (keyName : Nat → String) (name : String) (made : Nat) (pages : List Page) :
    Option Record → Prop where
  | missing : rolesTurned name pages = [] → rootsMade name pages = [] →
      Kept keyName name made pages none
  | present {r : Record} :
      r.Keeps keyName made (firstRoles ++ rolesTurned name pages) (rootsMade name pages) →
      (rootsMade name pages).length = rootTurns name pages + 1 →
      Kept keyName name made pages (some r)

section Histories

variable {keyName : Nat → String} {shelf : Location} {s t : Store} {pages : List Page} {p : Page}
  {name repo : String} {made made' : Nat} {r : Record} {old new : Option Record}

theorem Kept.keeps (h : Kept keyName name made pages (some r)) :
    r.Keeps keyName made (firstRoles ++ rolesTurned name pages) (rootsMade name pages) ∧
      (rootsMade name pages).length = rootTurns name pages + 1 := by
  cases h with
  | present hkeeps hcount => exact ⟨hkeeps, hcount⟩

theorem Kept.untouched (h : Kept keyName name made pages old) (hmade : made ≤ made')
    (hfounds : p.founds name = false) (hturned : p.turned? name = none) :
    Kept keyName name made' (pages ++ [p]) old := by
  have hroles : rolesTurned name (pages ++ [p]) = rolesTurned name pages := by
    rw [rolesTurned_snoc, hturned, Option.toList_none, List.append_nil]
  have hroots : rootsMade name (pages ++ [p]) = rootsMade name pages := by
    rw [rootsMade_snoc, Page.makesRoot, hfounds, hturned]
    exact List.append_nil _
  cases h with
  | missing hnone hnone' => exact .missing (hroles.trans hnone) (hroots.trans hnone')
  | @present r hkeeps hcount =>
    refine .present ?_ ?_
    · rw [hroles, hroots]
      exact hkeeps.mono hmade fun _ => Iff.rfl
    · rw [rootTurns, hroles, hroots]
      exact hcount

/-- A request that founds the record. -/
theorem Kept.founded (hinj : Function.Injective keyName)
    (h : Kept keyName name p.before.made pages none) (hfounds : p.founds name = true)
    (hturned : p.turned? name = none) {keys keys' : List LocalKey}
    (hmake : madeKeys keyName repo firstRoles p.before.made .empty keys = (r, keys')) :
    Kept keyName name (p.before.made + 4) (pages ++ [p]) (some r.bump) := by
  have hroles : rolesTurned name (pages ++ [p]) = rolesTurned name pages := by
    rw [rolesTurned_snoc, hturned]
    exact List.append_nil _
  cases h with
  | missing hnone hnone' =>
    have hroots : rootsMade name (pages ++ [p]) = [p.before.made] := by
      rw [rootsMade_snoc, Page.makesRoot, hnone', hfounds]
      rfl
    refine .present ?_ ?_
    · rw [hroles, hnone, hroots, List.append_nil]
      exact keeps_founded hinj hmake
    · rw [hroots, rootTurns, hroles, hnone]
      rfl

/-- One request more. -/
theorem Kept.step (hinj : Function.Injective keyName) (h : Kept keyName name p.before.made pages old)
    (hdone : p.done = true) (hwrites : Rewrites keyName p.before.made name old p.errand new made') :
    Kept keyName name made' (pages ++ [p]) new := by
  have hfounds : p.founds name = p.errand.founds name := by rw [Page.founds, hdone, Bool.true_and]
  have hturned : p.turned? name = p.errand.turned? name := by rw [Page.turned?, if_pos hdone]
  cases h with
  | missing hnone hnone' =>
    generalize p.errand = errand at hwrites hfounds hturned
    cases hwrites with
    | kept hfounded hrotated hmade =>
      exact (Kept.missing hnone hnone').untouched hmade (hfounds.trans hfounded)
        (hturned.trans hrotated)
    | @founded repo r keys keys' hname _ hmake =>
      exact (Kept.missing hnone hnone').founded hinj (hfounds.trans (decide_eq_true hname)) hturned
        hmake
    | published _ _ hr => cases hr
    | rotated _ hr => cases hr
  | @present r hkeeps hcount =>
    obtain ⟨hfounded, r', rfl, hkeeps'⟩ := hkeeps.step hinj hwrites
    rw [← hturned] at hkeeps'
    obtain ⟨hroots, hturns⟩ := rootsMade_turned (hfounds.trans hfounded) pages
    refine .present ?_ ?_
    · rwa [rolesTurned_snoc, ← List.append_assoc, hroots]
    · rw [hroots, hturns, List.length_append, hcount]
      split <;> rfl

/-- What holds of a record at the start, and after every request, holds of it at the end. If its root
document was shown last, that is the record's. -/
theorem Chronicle.records {Q : List Page → Nat → Option Record → Prop} (hs : s.disk.Regular)
    (hstart : s.disk.content (recordPlace shelf repo) = old.map Record.printed)
    (nil : Q [] s.made old)
    (idle : ∀ pages p record, Q pages p.before.made record → p.done = false →
      Q (pages ++ [p]) p.before.made record)
    (performed : ∀ pages p old new made', Q pages p.before.made old → p.done = true →
      Rewrites keyName p.before.made (recordName repo) old p.errand new made' →
        Q (pages ++ [p]) made' new)
    (h : Chronicle keyName shelf s pages t) :
    ∃ record, t.disk.content (recordPlace shelf repo) = record.map Record.printed ∧
      Q pages t.made record ∧
        ∀ p ∈ pages.getLast?, p.done = true → p.errand.shows? = some repo →
          t.disk.content (rootPlace p.home repo) = record.map Record.printedRoot := by
  have hinduct := h.induct (P := fun pages t =>
    ∃ record, t.disk.content (recordPlace shelf repo) = record.map Record.printed ∧
      Q pages t.made record ∧
        ∀ p ∈ pages.getLast?, p.done = true → p.errand.shows? = some repo →
          t.disk.content (rootPlace p.home repo) = record.map Record.printedRoot) hs
  refine (hinduct ⟨old, hstart, nil, nofun⟩ ?_ ?_).2
  · rintro pages p ⟨record, hcontent, hQ, -⟩ hidle
    refine ⟨record, hcontent, idle pages p record hQ hidle, fun q hq hdone => ?_⟩
    rw [List.getLast?_concat, Option.mem_some] at hq
    rw [← hq, hidle] at hdone
    cases hdone
  · rintro pages p u ⟨record, hcontent, hQ, -⟩ hdone hapart hperforms
    obtain ⟨new, hnew, hwrites, hshows⟩ := hperforms.rewrites hapart hcontent
    refine ⟨new, hnew, performed pages p record new u.made hQ hdone hwrites, fun q hq _ => ?_⟩
    rw [List.getLast?_concat, Option.mem_some] at hq
    exact hq ▸ hshows

/-- Every record is kept, whatever happens on the server. -/
theorem Chronicle.kept (hinj : Function.Injective keyName) (hs : s.disk.Regular)
    (hempty : s.disk.content (recordPlace shelf repo) = none)
    (h : Chronicle keyName shelf s pages t) :
    ∃ record, t.disk.content (recordPlace shelf repo) = record.map Record.printed ∧
      Kept keyName (recordName repo) t.made pages record ∧
        ∀ p ∈ pages.getLast?, p.done = true → p.errand.shows? = some repo →
          t.disk.content (rootPlace p.home repo) = record.map Record.printedRoot := by
  have hstart : s.disk.content (recordPlace shelf repo) = (none : Option Record).map Record.printed :=
    hempty
  refine h.records (Q := fun pages made record => Kept keyName (recordName repo) made pages record) hs
    hstart (.missing rfl rfl) (fun pages p record hkept hidle => ?_)
    fun pages p old new made' hkept hdone hwrites => hkept.step hinj hdone hwrites
  exact hkept.untouched (Nat.le_refl _) (by simp [Page.founds, hidle])
    (by simp [Page.turned?, hidle])

/-- What has become of a record that was there at the start, with the keys for `roles` and the root
keys in `roots`. -/
structure Record.Continues (keyName : Nat → String) (name : String) (roles : List String)
    (roots : List Nat) (made : Nat) (pages : List Page) (r : Record) : Prop where
  keeps : r.Keeps keyName made (roles ++ rolesTurned name pages) (roots ++ rootsMade name pages)
  count : (rootsMade name pages).length = rootTurns name pages

section Continuing

variable {roles : List String} {roots : List Nat} {first : Record}

theorem Record.Keeps.continues (h : r.Keeps keyName made roles roots) (name : String) :
    r.Continues keyName name roles roots made [] :=
  ⟨by simpa [rolesTurned, rootsMade] using h, rfl⟩

theorem Record.Continues.idle (h : r.Continues keyName name roles roots p.before.made pages)
    (hidle : p.done = false) :
    r.Continues keyName name roles roots p.before.made (pages ++ [p]) := by
  have hturned : p.turned? name = none := by simp [Page.turned?, hidle]
  have hfounds : p.founds name = false := by simp [Page.founds, hidle]
  obtain ⟨hroots, hturns⟩ := rootsMade_turned hfounds pages
  simp only [hturned, reduceCtorEq, if_false, List.append_nil, Nat.add_zero] at hroots hturns
  refine ⟨?_, by rw [hroots, hturns, h.count]⟩
  rw [rolesTurned_snoc, hturned, Option.toList_none, List.append_nil, hroots]
  exact h.keeps

theorem Record.Continues.step (hinj : Function.Injective keyName)
    (h : r.Continues keyName name roles roots p.before.made pages) (hdone : p.done = true)
    (hwrites : Rewrites keyName p.before.made name (some r) p.errand new made') :
    ∃ r', new = some r' ∧ r'.Continues keyName name roles roots made' (pages ++ [p]) := by
  have hturned : p.turned? name = p.errand.turned? name := by rw [Page.turned?, if_pos hdone]
  obtain ⟨hfounded, r', rfl, hkeeps⟩ := h.keeps.step hinj hwrites
  have hfounds : p.founds name = false := by rw [Page.founds, hfounded, Bool.and_false]
  obtain ⟨hroots, hturns⟩ := rootsMade_turned hfounds pages
  rw [← hturned] at hkeeps
  refine ⟨r', rfl, ?_, ?_⟩
  · rwa [rolesTurned_snoc, hroots, ← List.append_assoc, ← List.append_assoc]
  · rw [hroots, hturns, List.length_append, h.count]
    split <;> rfl

/-- A record that is there at the start stays there. -/
theorem Chronicle.continues (hinj : Function.Injective keyName) (hs : s.disk.Regular)
    (hfirst : s.disk.content (recordPlace shelf repo) = some first.printed)
    (hkeeps : first.Keeps keyName s.made roles roots) (h : Chronicle keyName shelf s pages t) :
    ∃ r : Record, t.disk.content (recordPlace shelf repo) = some r.printed ∧
      r.Continues keyName (recordName repo) roles roots t.made pages ∧
        ∀ p ∈ pages.getLast?, p.done = true → p.errand.shows? = some repo →
          t.disk.content (rootPlace p.home repo) = some r.printedRoot := by
  have hstart : s.disk.content (recordPlace shelf repo) = (some first).map Record.printed := hfirst
  have hrecords := h.records (Q := fun pages made record => ∃ r : Record, record = some r ∧
    r.Continues keyName (recordName repo) roles roots made pages) hs hstart
    ⟨first, rfl, hkeeps.continues _⟩
    (fun pages p record ⟨r, hr, hcontinues⟩ hidle => ⟨r, hr, hcontinues.idle hidle⟩)
    (by
      rintro pages p _ new made' ⟨r, rfl, hcontinues⟩ hdone hwrites
      exact hcontinues.step hinj hdone hwrites)
  obtain ⟨_, hcontent, ⟨r, rfl, hcontinues⟩, hshows⟩ := hrecords
  exact ⟨r, hcontent, hcontinues, hshows⟩

end Continuing

/-- A record that can be read has been kept. -/
theorem Chronicle.keeps (hinj : Function.Injective keyName) (hs : s.disk.Regular)
    (hempty : s.disk.content (recordPlace shelf repo) = none)
    (h : Chronicle keyName shelf s pages t)
    (htells : TellsRecord (t.disk.content (recordPlace shelf repo)) r) :
    Kept keyName (recordName repo) t.made pages (some r) := by
  obtain ⟨record, hcontent, hkept, -⟩ := h.kept hinj hs hempty
  rw [hcontent] at htells
  rwa [← tellsRecord_map htells]

end Histories

/-! ## Lawful records -/

/-- What the keys of a record are after a history of requests. `rootsMade` are the numbers of all root
keys that were ever made for it. -/
structure Record.Lawful (keyName : Nat → String) (name : String) (pages : List Page) (r : Record) :
    Prop where
  basic : ∀ role ∈ firstRoles, r.roles.contains role = true
  single : ∀ role ids, r.roles.get? role = some ids →
    ∃ id, ids = [id] ∧ r.keys.get? id = some role
  others : ∀ id role, r.keys.get? id = some role → role ≠ "root" → r.roles.get? role = some [id]
  known : ∀ id, r.keys.get? id = some "root" ↔ ∃ n ∈ rootsMade name pages, id = keyName n
  latest : ∃ n ∈ rootsMade name pages, r.roles.get? "root" = some [keyName n] ∧
    ∀ m ∈ rootsMade name pages, m ≤ n
  size : r.keys.size = r.roles.size + rootTurns name pages

section Lawful

variable {keyName : Nat → String} {shelf : Location} {s t : Store} {pages : List Page}
  {name repo : String} {made : Nat} {r : Record}

theorem Record.Keeps.lawful
    (h : r.Keeps keyName made (firstRoles ++ rolesTurned name pages) (rootsMade name pages))
    (hcount : (rootsMade name pages).length = rootTurns name pages + 1) :
    r.Lawful keyName name pages := by
  refine ⟨fun role hrole => ?_, fun role ids hids => ?_, h.others, h.known, ?_, ?_⟩
  · rw [h.ruling]
    exact List.mem_append_left _ hrole
  · have hcontains : r.roles.contains role = true := by
      rw [Dict.contains, hids]
      rfl
    obtain ⟨j, -, htrusted, hkey⟩ := h.ruled.trusted role ((h.ruling role).1 hcontains)
    rw [hids] at htrusted
    exact ⟨keyName j, Option.some.inj htrusted, hkey⟩
  · obtain ⟨older, n, hroots, htrusted⟩ := h.latest
    have hascending := h.ascending
    rw [hroots] at hascending ⊢
    refine ⟨n, by simp, htrusted, fun m hm => ?_⟩
    rcases List.mem_append.1 hm with hm | hm
    · exact Nat.le_of_lt ((List.pairwise_append.1 hascending).2.2 m hm n (List.mem_singleton_self n))
    · exact Nat.le_of_eq (List.mem_singleton.1 hm)
  · have hsize := h.size
    omega

/-- On a server that was empty at the start, every record that can be reached is lawful, and none of
the root keys that it ever had has been lost. -/
theorem Chronicle.record_lawful (hinj : Function.Injective keyName) (hs : s.disk.Regular)
    (hempty : ∀ name, s.disk.content (shelf ++ [name]) = none)
    (h : Chronicle keyName shelf s pages t) {data : ByteArray}
    (hdata : t.disk.content (recordPlace shelf repo) = some data) :
    ∃ r : Record, data = r.printed ∧ r.Lawful keyName (recordName repo) pages ∧
      ∀ earlier later m old, pages = earlier ++ later → Chronicle keyName shelf s earlier m →
        TellsRecord (m.disk.content (recordPlace shelf repo)) old →
          ∀ id, old.keys.get? id = some "root" → r.keys.get? id = some "root" := by
  obtain ⟨record, hcontent, hkept, -⟩ := h.kept hinj hs (hempty _)
  rw [hdata] at hcontent
  obtain ⟨r, rfl, hprinted⟩ := Option.map_eq_some_iff.1 hcontent.symm
  obtain ⟨hkeeps, hcount⟩ := hkept.keeps
  refine ⟨r, hprinted.symm, hkeeps.lawful hcount, ?_⟩
  intro earlier later m old hpages hearlier htells id hid
  obtain ⟨hkeeps', -⟩ := (hearlier.keeps hinj hs (hempty _) htells).keeps
  obtain ⟨n, hn, hname⟩ := (hkeeps'.known id).1 hid
  rw [hkeeps.known, hpages, rootsMade_append]
  exact ⟨n, List.mem_append_left _ hn, hname⟩

end Lawful

/-- After a rotation the demonstration's record has one key more than roles. -/
theorem record_lawful_demo : ∃ (t u : Store) (r : Record),
    Chronicle Main.keyName ["srv"] ⟨0, demoTree⟩ [demoFounding, demoTurn t] u ∧
      u.disk.content (recordPlace ["srv"] "demo") = some r.printed ∧
      r.Lawful Main.keyName "demo.json" [demoFounding, demoTurn t] ∧
      rootTurns "demo.json" [demoFounding, demoTurn t] = 1 := by
  obtain ⟨t, u, hfounding, -, hturn, hcontent⟩ := demo_history
  have h := hfounding.trans hturn
  obtain ⟨r, hprinted, hlawful, -⟩ := Chronicle.record_lawful (Text.hexadecimal_injective 32)
    regular_demoTree (fun _ => rfl) h hcontent
  exact ⟨t, u, r, h, by rw [hcontent, hprinted], hlawful, rfl⟩

end Notary
end TrustTrial
