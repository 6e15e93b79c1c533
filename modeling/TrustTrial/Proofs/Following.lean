import TrustTrial.Proofs.Listings
import TrustTrial.Proofs.Publishing
import TrustTrial.Proofs.Recognition

/-!
# TrustTrial.Proofs.Following

The clients' copies of a root document, on one repository. A request brings the copy of its own client
up to date and touches no other one, so every copy is the root document of the record as it stood
after the last such request of its client. The record goes only forward (`Record.Follows`), and with
it each of the copies.
-/

namespace TrustTrial
namespace Notary

open Disk

/-! ## Records -/

/-- What a record may have become in the course of time. -/
structure Record.Follows (new old : Record) : Prop where
  version : old.version ≤ new.version
  same : new.version = old.version → new.keys = old.keys ∧ new.roles = old.roles
  keys : old.keys.size ≤ new.keys.size

section Records

variable {keyName : Nat → String} {made made' : Nat} {name : String} {pages : List Page}
  {roles : List String} {roots : List Nat} {errand : Errand} {r r' r'' : Record}
  {old new : Option Record}

theorem Record.Follows.refl (r : Record) : r.Follows r :=
  ⟨Nat.le_refl _, fun _ => ⟨rfl, rfl⟩, Nat.le_refl _⟩

theorem Record.Follows.trans (h : r''.Follows r') (h' : r'.Follows r) : r''.Follows r := by
  refine ⟨Nat.le_trans h'.version h.version, fun hversion => ?_, Nat.le_trans h'.keys h.keys⟩
  have hle := h.version
  have hle' := h'.version
  obtain ⟨hkeys, hroles⟩ := h.same (by omega)
  obtain ⟨hkeys', hroles'⟩ := h'.same (by omega)
  exact ⟨hkeys.trans hkeys', hroles.trans hroles'⟩

/-- A new version may have any keys and roles, as long as no fewer keys. -/
theorem Record.Follows.of_version (hversion : r'.version = r.version + 1)
    (hkeys : r.keys.size ≤ r'.keys.size) : r'.Follows r :=
  ⟨by omega, fun hsame => absurd (hsame.symm.trans hversion) (by omega), hkeys⟩

/-- A rotation gives up no more keys than it makes. -/
theorem Record.Keeps.follows_rotated (hinj : Function.Injective keyName)
    (h : r.Keeps keyName made roles roots) (hversion : r.version < Text.maxWord) (role : String) :
    (r.rotated role (keyName made)).Follows r := by
  have hrotated := h.rotated hinj hversion role
  have hroles := (h.roles_between hrotated).1
  have hsize := h.size
  have hsize' := hrotated.size
  refine .of_version (r.version_rotated role _) ?_
  split at hsize'
  · rw [List.length_append, List.length_singleton] at hsize'
    omega
  · omega

/-- Whatever is done to a record, it goes forward. -/
theorem Rewrites.follows (hinj : Function.Injective keyName)
    (h : Rewrites keyName made name old errand new made') (hkept : Kept keyName name made pages old)
    (hr : old = some r) : ∃ r', new = some r' ∧ r'.Follows r := by
  cases h with
  | kept => exact ⟨r, hr, .refl r⟩
  | founded _ hnone =>
    rw [hr] at hnone
    cases hnone
  | published staged _ hold =>
    obtain rfl := Option.some.inj (hr.symm.trans hold)
    exact ⟨_, rfl, .of_version rfl (Nat.le_refl _)⟩
  | @rotated _ role _ _ hold hversion =>
    obtain rfl := Option.some.inj (hr.symm.trans hold)
    rw [hr] at hkept
    exact ⟨_, rfl, hkept.keeps.1.follows_rotated hinj hversion role⟩

end Records

/-! ## Copies -/

/-- Whether it has brought a client's copy of a root document up to date. -/
def Page.refreshes (home : Location) (repo : String) (p : Page) : Bool :=
  p.done && p.home = home && p.errand.shows? = some repo

theorem Page.refreshes_iff {home : Location} {repo : String} {p : Page} :
    p.refreshes home repo = true ↔ p.done = true ∧ p.home = home ∧ p.errand.shows? = some repo := by
  simp [Page.refreshes, and_assoc]

theorem rootPlace_inj {home home' : Location} {repo : String}
    (h : rootPlace home repo = rootPlace home' repo) : home = home' := by
  simpa [rootPlace] using h

theorem rootPlace_ne_keysPlace (home home' : Location) (repo : String) :
    rootPlace home repo ≠ keysPlace home' := by
  have hkeys : keysPlace home' = home' ++ ["private"] ++ ["keys.json"] := by simp [keysPlace]
  rw [rootPlace, hkeys]
  exact fun h => absurd (List.append_inj' h rfl).2 (by decide)

section Copies

variable {keyName : Nat → String} {shelf home other : Location} {repo : String}
  {files : String → Except Fault ByteArray} {f f' : Tree.Contents} {made made' : Nat}
  {errand : Errand}

/-- A request that brings a copy up to date leaves it there. -/
theorem Performs.shown (h : Performs keyName shelf home files f made errand f' made')
    (hshows : errand.shows? = some repo) : f' (rootPlace home repo) ≠ none := by
  cases h with
  | init | publish | publishNothing | list | rotate =>
    obtain rfl := Option.some.inj hshows
    rw [Tree.Contents.put_self]
    exact Option.some_ne_none _
  | add | verify | keys | other => cases hshows

/-- No copy is changed but that of the client itself. -/
theorem Performs.copy_kept (h : Performs keyName shelf home files f made errand f' made')
    (hrepo : ∀ repo' ∈ errand.repo?, repo' = repo) (hapart : Apart shelf other)
    (hshows : home = other → errand.shows? ≠ some repo) :
    f' (rootPlace other repo) = f (rootPlace other repo) := by
  refine h.frame fun hmem => ?_
  rcases Errand.of_mem_places hmem with he | ⟨repo', hrepo', he | he | ⟨he, hshown⟩⟩
  · exact rootPlace_ne_keysPlace other home repo he
  · exact hapart.ne_rootPlace (prefix_recordPlace shelf repo') repo he.symm
  · exact stagedPlace_ne_rootPlace home other repo' repo he.symm
  · obtain rfl := hrepo repo' hrepo'
    exact hshows (rootPlace_inj he).symm hshown

/-- Of the server's files only the record of the repository is changed. -/
theorem Performs.shelf_kept (h : Performs keyName shelf home files f made errand f' made')
    (hrepo : ∀ repo' ∈ errand.repo?, repo' = repo) (hapart : Apart shelf home) {place : Location}
    (hplace : shelf <+: place) (hne : place ≠ recordPlace shelf repo) : f' place = f place := by
  refine h.frame fun hmem => ?_
  rcases Errand.of_mem_places hmem with he | ⟨repo', hrepo', he | he | ⟨he, -⟩⟩
  · exact hapart.ne_keysPlace hplace he
  · obtain rfl := hrepo repo' hrepo'
    exact hne he
  · exact hapart.ne_stagedPlace hplace repo' he
  · exact hapart.ne_rootPlace hplace repo' he

end Copies

/-! ## The server's own files -/

theorem toList_recordName (repo : String) : (recordName repo).toList =
    repo.toList.map (fun c => if c = '/' then '_' else c) ++ ".json".toList := by
  simp [recordName, replaceSlashes]

theorem recordName_ne_stale (repo : String) : recordName repo ≠ "stale_suffix" := by
  intro he
  have hlast := congrArg (fun name => name.toList.getLast?) he
  rw [toList_recordName, List.getLast?_append,
    show ".json".toList.getLast? = some 'n' by decide, Option.some_or] at hlast
  exact absurd hlast (by decide)

/-- Only the repository of that name has its record where a server keeps its login. -/
theorem recordName_ne_login {repo : String} (h : repo ≠ "login") : recordName repo ≠ "login.json" := by
  intro he
  have hchars := congrArg String.toList he
  rw [toList_recordName] at hchars
  have hname : repo.toList.map (fun c => if c = '/' then '_' else c) = "login".toList :=
    List.append_cancel_right (hchars.trans (by decide : _ = "login".toList ++ ".json".toList))
  refine h (String.toList_injective (Eq.trans ?_ hname))
  refine ((List.map_congr_left fun c hc => ?_).trans (List.map_id _)).symm
  refine if_neg ?_
  -- A slash would have become an underscore, and there is none.
  rintro rfl
  have hmem := List.mem_map_of_mem (f := fun c => if c = '/' then '_' else c) hc
  rw [hname] at hmem
  exact absurd hmem (by decide)

/-! ## Histories -/

section Histories

variable {keyName : Nat → String} {shelf home : Location} {repo : String} {s t u : Store}
  {pages earlier later more : List Page} {p : Page} {r : Record}

/-- Between any two pages there is a moment. -/
theorem Chronicle.split (h : Chronicle keyName shelf s pages t) (hpages : pages = earlier ++ later) :
    ∃ m, Chronicle keyName shelf s earlier m ∧ Chronicle keyName shelf m later t := by
  induction h generalizing later with
  | nil =>
    obtain ⟨rfl, rfl⟩ := List.append_eq_nil_iff.1 hpages.symm
    exact ⟨s, .nil, .nil⟩
  | snoc hbefore hfair hrun ih =>
    rcases List.eq_nil_or_concat later with rfl | ⟨rest, last, rfl⟩
    · rw [List.append_nil] at hpages
      exact ⟨_, hpages ▸ hbefore.snoc hfair hrun, .nil⟩
    · rw [List.concat_eq_append, ← List.append_assoc] at hpages
      obtain ⟨hfront, hlast⟩ := List.append_inj' hpages rfl
      obtain ⟨m, hearlier, hrest⟩ := ih hfront
      rw [List.concat_eq_append, ← hlast]
      exact ⟨m, hearlier, hrest.snoc hfair hrun⟩

/-- What can be said of a repository's record at a moment that is reached by some pages. -/
structure Store.Has (keyName : Nat → String) (shelf : Location) (repo : String) (pages : List Page)
    (t : Store) (r : Record) : Prop where
  file : t.disk.content (recordPlace shelf repo) = some r.printed
  kept : Kept keyName (recordName repo) t.made pages (some r)

/-- A record goes forward, and a request that brings a copy up to date brings it to the record. -/
theorem Store.Has.follows (hinj : Function.Injective keyName) (ht : t.disk.Regular)
    (h : t.Has keyName shelf repo pages r) (hafter : Chronicle keyName shelf t more u) :
    ∃ r', u.Has keyName shelf repo (pages ++ more) r' ∧ r'.Follows r ∧
      ∀ p ∈ more.getLast?, p.refreshes p.home repo = true →
        u.disk.content (rootPlace p.home repo) = some r'.printedRoot := by
  refine (hafter.induct (P := fun more u => ∃ r', u.Has keyName shelf repo (pages ++ more) r' ∧
    r'.Follows r ∧ ∀ p ∈ more.getLast?, p.refreshes p.home repo = true →
      u.disk.content (rootPlace p.home repo) = some r'.printedRoot) ht ?_ ?_ ?_).2
  · rw [List.append_nil]
    exact ⟨r, h, .refl r, nofun⟩
  · rintro more p ⟨r', ⟨hfile, hkept⟩, hfollows, -⟩ hidle
    rw [← List.append_assoc]
    refine ⟨r', ⟨hfile, hkept.untouched (Nat.le_refl _) (by simp [Page.founds, hidle])
      (by simp [Page.turned?, hidle])⟩, hfollows, fun q hq hrefreshes => ?_⟩
    rw [List.getLast?_concat, Option.mem_some] at hq
    rw [← hq, Page.refreshes_iff, hidle] at hrefreshes
    cases hrefreshes.1
  · rintro more p u ⟨r', ⟨hfile, hkept⟩, hfollows, -⟩ hdone hapart hperforms
    have hold : p.before.disk.content (recordPlace shelf repo) = (some r').map Record.printed := hfile
    obtain ⟨new, hnew, hwrites, hshows⟩ := hperforms.rewrites hapart hold
    obtain ⟨r'', rfl, hfollows'⟩ := hwrites.follows hinj hkept rfl
    rw [← List.append_assoc]
    refine ⟨r'', ⟨hnew, hkept.step hinj hdone hwrites⟩, hfollows'.trans hfollows,
      fun q hq hrefreshes => ?_⟩
    rw [List.getLast?_concat, Option.mem_some] at hq
    rw [← hq, Page.refreshes_iff] at hrefreshes
    exact hq ▸ hshows hrefreshes.2.2

/-- After a request that brings a copy up to date there is a record. -/
theorem Chronicle.refreshed (hinj : Function.Injective keyName) (hs : s.disk.Regular)
    (hempty : s.disk.content (recordPlace shelf repo) = none)
    (h : Chronicle keyName shelf s (pages ++ [p]) t) (hp : p.refreshes home repo = true) :
    ∃ r, t.Has keyName shelf repo (pages ++ [p]) r ∧
      t.disk.content (rootPlace home repo) = some r.printedRoot := by
  obtain ⟨hdone, rfl, hshown⟩ := Page.refreshes_iff.1 hp
  obtain ⟨record, hcontent, hkept, hshows⟩ := h.kept hinj hs hempty
  have hcopy := hshows p (by rw [List.getLast?_concat]; rfl) hdone hshown
  obtain ⟨-, hidle | ⟨-, -, hperforms⟩⟩ := h.last hs
  · rw [hdone] at hidle
    cases hidle.1
  · cases record with
    | none => exact absurd hcopy (hperforms.shown hshown)
    | some r => exact ⟨r, ⟨hcontent, hkept⟩, hcopy⟩

/-- A client's copy stays as it is until the client brings it up to date. -/
theorem Chronicle.copy_kept (ht : t.disk.Regular) (hapart : Apart shelf home)
    (h : Chronicle keyName shelf t more u) (hrepo : ∀ p ∈ more, ∀ repo' ∈ p.errand.repo?, repo' = repo)
    (hnone : ∀ p ∈ more, p.refreshes home repo = false) :
    u.disk.content (rootPlace home repo) = t.disk.content (rootPlace home repo) := by
  refine (h.induct (P := fun more u => (∀ p ∈ more, ∀ repo' ∈ p.errand.repo?, repo' = repo) →
    (∀ p ∈ more, p.refreshes home repo = false) →
      u.disk.content (rootPlace home repo) = t.disk.content (rootPlace home repo)) ht ?_ ?_ ?_).2
    hrepo hnone
  · exact fun _ _ => rfl
  · intro more p hkept _ hrepo hnone
    exact hkept (List.forall_mem_append.1 hrepo).1 (List.forall_mem_append.1 hnone).1
  · intro more p u hkept hdone _ hperforms hrepo hnone
    obtain ⟨hrepo, hlast⟩ := List.forall_mem_append.1 hrepo
    obtain ⟨hnone, hother⟩ := List.forall_mem_append.1 hnone
    have hp := List.mem_singleton_self p
    rw [hperforms.copy_kept (hlast p hp) hapart, hkept hrepo hnone]
    intro hhome hshown
    have hrefreshes := Page.refreshes_iff.2 ⟨hdone, hhome, hshown⟩
    rw [hother p hp] at hrefreshes
    cases hrefreshes

/-- Of the server's files only the record of the repository is ever changed. -/
theorem Chronicle.shelf_kept (hs : s.disk.Regular) (h : Chronicle keyName shelf s pages t)
    (hrepo : ∀ p ∈ pages, ∀ repo' ∈ p.errand.repo?, repo' = repo) {place : Location}
    (hplace : shelf <+: place) (hne : place ≠ recordPlace shelf repo) :
    t.disk.content place = s.disk.content place := by
  refine (h.induct (P := fun pages t => (∀ p ∈ pages, ∀ repo' ∈ p.errand.repo?, repo' = repo) →
    t.disk.content place = s.disk.content place) hs ?_ ?_ ?_).2 hrepo
  · exact fun _ => rfl
  · exact fun pages p hkept _ hrepo => hkept (List.forall_mem_append.1 hrepo).1
  · intro pages p u hkept _ hapart hperforms hrepo
    obtain ⟨hrepo, hlast⟩ := List.forall_mem_append.1 hrepo
    rw [hperforms.shelf_kept (hlast p (List.mem_singleton_self p)) hapart hplace hne, hkept hrepo]

/-- Either a copy has never been brought up to date, or there was a last time. -/
theorem last_refresh (home : Location) (repo : String) (pages : List Page) :
    (∀ p ∈ pages, p.refreshes home repo = false) ∨
      ∃ earlier p later, pages = earlier ++ p :: later ∧ p.refreshes home repo = true ∧
        ∀ q ∈ later, q.refreshes home repo = false := by
  cases hfind : pages.reverse.find? (Page.refreshes home repo) with
  | none =>
    rw [List.find?_eq_none] at hfind
    exact .inl fun p hp => Bool.not_eq_true _ ▸ hfind p (List.mem_reverse.2 hp)
  | some p =>
    obtain ⟨hp, later, earlier, hpages, hlater⟩ := List.find?_eq_some_iff_append.1 hfind
    refine .inr ⟨earlier.reverse, p, later.reverse, ?_, hp, fun q hq => ?_⟩
    · rw [← List.reverse_reverse pages, hpages, List.reverse_append, List.reverse_cons,
        List.append_assoc, List.singleton_append]
    · simpa using hlater q (List.mem_reverse.1 hq)

/-- The copy of a client that was last brought up to date at a page. -/
theorem Chronicle.copy_of_refresh (hinj : Function.Injective keyName) (hs : s.disk.Regular)
    (hempty : s.disk.content (recordPlace shelf repo) = none) (hapart : Apart shelf home)
    (h : Chronicle keyName shelf s (earlier ++ p :: later) t)
    (hrepo : ∀ p ∈ later, ∀ repo' ∈ p.errand.repo?, repo' = repo)
    (hp : p.refreshes home repo = true) (hlater : ∀ q ∈ later, q.refreshes home repo = false) :
    ∃ m r, Chronicle keyName shelf s (earlier ++ [p]) m ∧ Chronicle keyName shelf m later t ∧
      m.Has keyName shelf repo (earlier ++ [p]) r ∧
        t.disk.content (rootPlace home repo) = some r.printedRoot := by
  obtain ⟨m, hbefore, hafter⟩ := h.split (List.append_cons earlier p later)
  obtain ⟨r, hr, hcopy⟩ := hbefore.refreshed hinj hs hempty hp
  refine ⟨m, r, hbefore, hafter, hr, ?_⟩
  rw [hafter.copy_kept (hbefore.regular hs) hapart hrepo hlater, hcopy]

/-- The copies that a client has one after the other go forward as the record does. -/
theorem Chronicle.copy_forward (hinj : Function.Injective keyName) (hs : s.disk.Regular)
    (hempty : s.disk.content (recordPlace shelf repo) = none) (hapart : Apart shelf home)
    (hnone : s.disk.content (rootPlace home repo) = none)
    (hbefore : Chronicle keyName shelf s earlier t) (hafter : Chronicle keyName shelf t later u)
    (hrepo : ∀ p ∈ earlier ++ later, ∀ repo' ∈ p.errand.repo?, repo' = repo) :
    t.disk.content (rootPlace home repo) = none ∨ ∃ old new : Record,
      t.disk.content (rootPlace home repo) = some old.printedRoot ∧
        u.disk.content (rootPlace home repo) = some new.printedRoot ∧ new.Follows old := by
  obtain ⟨hearlier, hlater⟩ := List.forall_mem_append.1 hrepo
  have ht := hbefore.regular hs
  rcases last_refresh home repo earlier with hnever | ⟨front, p, back, rfl, hp, hback⟩
  · exact .inl ((hbefore.copy_kept hs hapart hearlier hnever).trans hnone)
  · obtain ⟨hfront, hrest⟩ := List.forall_mem_append.1 hearlier
    obtain ⟨m, old, hm, hmt, hold, hcopy⟩ := hbefore.copy_of_refresh hinj hs hempty hapart
      (List.forall_mem_cons.1 hrest).2 hp hback
    refine .inr ⟨old, ?_⟩
    rcases last_refresh home repo later with hnever | ⟨front', q, back', rfl, hq, hback'⟩
    · exact ⟨old, hcopy, (hafter.copy_kept ht hapart hlater hnever).trans hcopy, .refl old⟩
    · -- The record went forward from the one refreshing to the other.
      obtain ⟨n, htn, hnu⟩ := hafter.split (List.append_cons front' q back')
      obtain ⟨hfront', hrest'⟩ := List.forall_mem_append.1 hlater
      have hmn := hmt.trans htn
      obtain ⟨new, -, hfollows, hshows⟩ := hold.follows hinj (hm.regular hs) hmn
      refine ⟨new, hcopy, ?_, hfollows⟩
      obtain ⟨-, rfl, -⟩ := Page.refreshes_iff.1 hq
      rw [hnu.copy_kept (hmn.regular (hm.regular hs)) hapart (List.forall_mem_cons.1 hrest').2 hback']
      exact hshows q (by rw [← List.append_assoc, List.getLast?_concat]; rfl) hq

/-- On a server and among clients that had nothing at the start, with all requests about one
repository: a copy is the root document of the record as it stood after the last request that brought
the copy up to date, from where the record has only gone forward; the copies of a client go forward
too; and a listing says the same to whoever asks for it. -/
theorem Chronicle.copies_follow (hinj : Function.Injective keyName) (hs : s.disk.Regular)
    (hempty : ∀ name, name ≠ "stale_suffix" → s.disk.content (shelf ++ [name]) = none)
    (hnone : ∀ home, Apart shelf home → s.disk.content (rootPlace home repo) = none)
    (hlogin : repo ≠ "login") (h : Chronicle keyName shelf s pages t)
    (hrepo : ∀ p ∈ pages, ∀ repo' ∈ p.errand.repo?, repo' = repo) :
    (∀ home, Apart shelf home → (∀ p ∈ pages, p.refreshes home repo = false) →
      t.disk.content (rootPlace home repo) = none) ∧
    (∀ home earlier p later, Apart shelf home → pages = earlier ++ p :: later →
      p.refreshes home repo = true → (∀ q ∈ later, q.refreshes home repo = false) →
      ∃ (m : Store) (old new : Record), Chronicle keyName shelf s (earlier ++ [p]) m ∧
        Chronicle keyName shelf m later t ∧
        m.disk.content (recordPlace shelf repo) = some old.printed ∧
        t.disk.content (rootPlace home repo) = some old.printedRoot ∧
        t.disk.content (recordPlace shelf repo) = some new.printed ∧ new.Follows old) ∧
    (∀ home earlier later m, Apart shelf home → pages = earlier ++ later →
      Chronicle keyName shelf s earlier m → Chronicle keyName shelf m later t →
      m.disk.content (rootPlace home repo) = none ∨ ∃ old new : Record,
        m.disk.content (rootPlace home repo) = some old.printedRoot ∧
          t.disk.content (rootPlace home repo) = some new.printedRoot ∧ new.Follows old) ∧
    ∀ here f a b, AsksListing keyName shelf here f repo t a →
      AsksListing keyName shelf here f repo t b →
        (run keyName a t.made t.disk).1 = (run keyName b t.made t.disk).1 := by
  have hrecord : s.disk.content (recordPlace shelf repo) = none := hempty _ (recordName_ne_stale repo)
  refine ⟨?_, ?_, ?_, ?_⟩
  · intro home hapart hnever
    exact (h.copy_kept hs hapart hrepo hnever).trans (hnone home hapart)
  · rintro home earlier p later hapart rfl hp hlater
    obtain ⟨-, hrest⟩ := List.forall_mem_append.1 hrepo
    obtain ⟨m, old, hbefore, hafter, hold, hcopy⟩ := h.copy_of_refresh hinj hs hrecord hapart
      (List.forall_mem_cons.1 hrest).2 hp hlater
    obtain ⟨new, hnew, hfollows, -⟩ := hold.follows hinj (hbefore.regular hs) hafter
    exact ⟨m, old, new, hbefore, hafter, hold.file, hcopy, hnew.file, hfollows⟩
  · rintro home earlier later m hapart rfl hbefore hafter
    exact hbefore.copy_forward hinj hs hrecord hapart (hnone home hapart) hafter hrepo
  · intro here f a b ha hb
    refine listings_alike (h.regular hs) ?_ ha hb
    rw [h.shelf_kept hs hrepo (List.prefix_append _ _), hempty _ (by decide)]
    intro he
    exact recordName_ne_login hlogin (List.cons.inj (List.append_cancel_left he)).1.symm

end Histories

/-! ## A sample -/

/-- The demonstration's tree with the trust directory of another client. -/
def pairTree : Tree := demoTree.put ["other"] .directory

def otherVisit (base : Tree) : Visit := ⟨demoPremises, "/other", ["other"], base⟩

def pairFounding : Page := ⟨demoRequest ["init", "demo"] "", ["home"], ⟨0, pairTree⟩, true⟩

/-- A request to list the demonstration's repository, from a trust directory. -/
def demoListing (trustDir : String) : Request :=
  { demoRequest [] "" with args := demoRunner.arguments (.new trustDir ["list", "demo"]) }

theorem grounded_pairTree : demoPremises.Grounded pairTree :=
  grounded_put grounded_demoTree rfl (by decide) (by decide) (by decide)

theorem regular_pairTree : pairTree.Regular := regular_put regular_demoTree (by decide) rfl

/-- Below the directories there is nothing yet. -/
theorem content_pairTree {place : Location} (h : 2 ≤ place.length) : pairTree.content place = none := by
  have hput : ∀ (t : Tree) (name : String) (node : Node),
      (t.put [name] node).find? place = t.find? place := by
    intro t name node
    rw [Tree.find?_put t (List.cons_ne_nil name []), if_neg]
    rintro rfl
    exact absurd h (by simp)
  apply Tree.content_of_none
  rw [pairTree, hput, demoTree, hput, demoGround, hput, hput]
  cases place with
  | nil => exact absurd h (by simp)
  | cons => rfl

theorem sound_otherVisit {base : Tree} (hbase : demoPremises.Grounded base) :
    (otherVisit base).Sound where
  premises := sound_demoPremises
  located := (rfl : demoGround.locate [] "/other" = .ok ["other"])
  open_end := (by decide : Path.endsInSlash "/other" = false)
  free := by
    rintro _ ⟨rest, rfl⟩
    rfl
  apart := (by decide +kernel : ∀ name ∈ demoPremises.reserved, ["other"] ≠ ["srv"] ++ [name])
  keys_path := (by decide +kernel : Tree.refuse? (keysPath "/other") = none)
  staged_path := (by decide +kernel : Tree.refuse? (stagedPath "/other" "demo") = none)
  root_path := (by decide +kernel : Tree.refuse? (RootDocument.path "/other" "demo") = none)
  grounded := hbase

/-- Both clients start with empty trust directories. -/
theorem housed_pairTree {name repo : String} (hname : name = "home" ∨ name = "other") :
    Housed pairTree [name] repo .empty := by
  refine Housed.empty ?_ ?_
  · rcases hname with rfl | rfl <;> rfl
  · rintro _ ⟨rest, rfl⟩ hne
    cases rest with
    | nil => exact absurd rfl hne
    | cons other rest => rcases hname with rfl | rfl <;> rfl

/-- A client that finds the demonstration's record can ask for the listing. -/
theorem asks_demoListing {t : Store} {v : View} {trustDir : String} {home : Location} {base : Tree}
    (hc : (⟨demoPremises, trustDir, home, base⟩ : Visit).Sound) (hdots : ".." ∉ Path.parts trustDir)
    (hhome : Path.place [] trustDir = home) (hapart : Apart ["srv"] home)
    (hrecord : v.record = some demoRecord)
    (hfits : (⟨demoPremises, trustDir, home, base⟩ : Visit).Fits
      (deskOf (demoListing trustDir) t.made t.disk) v) :
    AsksListing Main.keyName ["srv"] [] (demoRunner.flags "") "demo" t (demoListing trustDir) := by
  have hwords : ∀ w ∈ ["list", "demo"].head?, w ∉ ["-s", "-c", "-d", "-D", "debug"] := by decide
  have hread : Flags.read (demoListing trustDir).args =
      (demoRunner.flags trustDir, ["list", "demo"]) :=
    read_request (i := .new trustDir ["list", "demo"]) rfl hwords
  have hurl : serverDir? "file:///srv" = some "/srv" := by decide
  have hdirected : Directed t.disk (demoListing trustDir) ["srv"] home :=
    directed_demo hread rfl hdots hhome
  obtain ⟨w, hgoes⟩ : ∃ w, (⟨demoPremises, trustDir, home, base⟩ : Visit).Goes
      (command demoPremises.office "/srv" trustDir ["list", "demo"]) v () w :=
    ⟨_, (goes_login hc nofun).bind (goes_list hc hrecord bounded_demoRecord.version)⟩
  have hunhindered : Unhindered Main.keyName (demoListing trustDir) t.made t.disk :=
    unhindered_of_goes (r := demoRunner) (i := .new trustDir ["list", "demo"]) hc rfl rfl hurl rfl
      hwords hgoes hfits
  have hstraight : ∀ repo ∈ (errandOf (demoListing trustDir)).repo?, Path.Straight repo := by
    rw [errandOf, hread]
    rintro _ ⟨⟩
    exact ⟨by decide, by decide⟩
  have hcurrent : Current t.disk (demoListing trustDir) :=
    current_of_content hdirected (Tree.content_of_none (hfits.grounded hc).fresh)
  exact ⟨rfl, ⟨trustDir, hread⟩, ⟨home, ⟨hdirected, hapart, hstraight⟩, hunhindered⟩, hcurrent⟩

/-- In the demonstration the founder has a copy of the record's root document, the other client has
none, and both are told the same of the record. -/
theorem copies_follow_demo : ∃ (t : Store) (r : Record),
    Chronicle Main.keyName ["srv"] ⟨0, pairTree⟩ [pairFounding] t ∧
      t.disk.content (rootPlace ["home"] "demo") = some r.printedRoot ∧
      t.disk.content (rootPlace ["other"] "demo") = none ∧
      (run Main.keyName (demoListing "/home") t.made t.disk).1 =
        (run Main.keyName (demoListing "/other") t.made t.disk).1 := by
  have hfits : (demoVisit pairTree).Fits (deskOf (demoRequest ["init", "demo"] "") 0 pairTree)
      ⟨none, .empty, 0, none, ""⟩ :=
    Visit.fits_start (by rfl) (housed_pairTree (.inl rfl)) _
  obtain ⟨output, hfounds⟩ := goes_demoFounding grounded_pairTree
  obtain ⟨t, h, hmade, hfounded⟩ := Chronicle.nil.goes_demo (s := ⟨0, pairTree⟩)
    grounded_pairTree (by decide) (by decide) hfounds hfits
  have hhome : Apart ["srv"] ["home"] := ⟨by decide, by decide⟩
  have hother : Apart ["srv"] ["other"] := ⟨by decide, by decide⟩
  have hrepo : ∀ p ∈ [pairFounding], ∀ repo ∈ p.errand.repo?, repo = "demo" := by
    rw [List.forall_mem_singleton]
    rintro _ ⟨⟩
    rfl
  obtain ⟨hnever, hlast, -, hlists⟩ := Chronicle.copies_follow
    (Text.hexadecimal_injective 32) regular_pairTree (fun _ _ => rfl)
    (fun home _ => content_pairTree (by simp [rootPlace]; omega)) (by decide : "demo" ≠ "login") h hrepo
  obtain ⟨-, r, -, -, -, -, hcopy, -⟩ := hlast ["home"] [] pairFounding [] hhome rfl rfl
    (List.forall_mem_nil _)
  have hc := sound_demoVisit grounded_pairTree
  have hfits' : (otherVisit t.disk).Fits (deskOf (demoListing "/other") t.made t.disk)
      ⟨some demoRecord, .empty, 4, none, ""⟩ := by
    rw [hmade]
    refine Visit.fits_start (hfounded (demoListing "/other")).record ?_ _
    refine (housed_pairTree (.inr rfl)).congr fun place hplace => ?_
    -- The founder has touched nothing in the other client's trust directory.
    obtain ⟨rest, rfl⟩ := hplace
    refine (hfounded (demoListing "/other")).elsewhere _ (fun he => ?_) fun hp => ?_
    · exact absurd (List.cons.inj he).1 (by decide)
    · exact absurd (List.cons_prefix_cons.1 hp).1 (by decide)
  refine ⟨t, r, h, hcopy, hnever _ hother ?_, hlists [] (demoRunner.flags "") _ _ ?_ ?_⟩
  · exact List.forall_mem_singleton.2 rfl
  · exact asks_demoListing hc (by decide) (by decide) hhome rfl (hfounded _)
  · exact asks_demoListing (sound_otherVisit ((hfounded (demoListing "/home")).grounded hc))
      (by decide) (by decide) hother rfl hfits'

end Notary
end TrustTrial
