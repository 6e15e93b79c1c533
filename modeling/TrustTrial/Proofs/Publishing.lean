import TrustTrial.Proofs.Chronicles
import TrustTrial.Proofs.Dicts

/-!
# TrustTrial.Proofs.Publishing

What becomes of additions, on one repository and with any number of clients. A client stages them in
a file of its own and publishes all of them at once, so the files of the clients never mix; the record
is shared, and `Record.Published` tells it from what the publications have carried, in their order.
-/

namespace TrustTrial
namespace Notary

open Disk

/-! ## Requests -/

namespace Errand

def publishes : Errand → Bool
  | .publish _ => true
  | _ => false

def rotates : Errand → Bool
  | .rotate _ _ => true
  | _ => false

/-- What it adds, if the file to be added is there. -/
def addition? (files : String → Except Fault ByteArray) : Errand → Option Staged
  | .add _ name file => (files file).toOption.map fun data => ⟨name, .ofContent data⟩
  | _ => none

end Errand

namespace Page

/-- Whether it is a publication. -/
def publishes (p : Page) : Bool := p.done && p.errand.publishes

/-- Whether it is the rotation of a key. -/
def rotates (p : Page) : Bool := p.done && p.errand.rotates

/-- What it has added to what is staged. -/
def addition? (p : Page) : Option Staged :=
  if p.done then p.errand.addition? p.files else none

end Page

/-- The pages after the last publication by a client. -/
def sincePublished (home : Location) (pages : List Page) : List Page :=
  (pages.reverse.takeWhile fun p => !(p.publishes && p.home = home)).reverse

/-- The additions of a client that it has not published. -/
def pending (home : Location) (pages : List Page) : List Staged :=
  ((sincePublished home pages).filter fun p => p.home = home).filterMap Page.addition?

/-- What the publications carry, each the additions of its client, if some pages come before them. -/
def batchesAfter (before : List Page) : List Page → List (List Staged)
  | [] => []
  | p :: pages =>
    (if p.publishes then [pending p.home before] else []) ++ batchesAfter (before ++ [p]) pages

/-- What the publications have carried, one by one. -/
def batches (pages : List Page) : List (List Staged) := batchesAfter [] pages

/-- How many new versions there have been: one for each publication of something and for each
rotation. -/
def versionsMade (pages : List Page) : Nat :=
  ((batches pages).filter (· ≠ [])).length + pages.countP Page.rotates

/-- The last entry for a name. -/
def lastTarget? (name : String) (entries : List Staged) : Option Target :=
  (entries.reverse.find? fun entry => entry.name = name).map (·.target)

section Requests

variable {home : Location} {pages : List Page} {p : Page} {name : String}

theorem sincePublished_snoc (home : Location) (pages : List Page) (p : Page) :
    sincePublished home (pages ++ [p]) =
      if p.publishes = true ∧ p.home = home then [] else sincePublished home pages ++ [p] := by
  rw [sincePublished, List.reverse_append, List.reverse_singleton, List.singleton_append,
    List.takeWhile_cons]
  by_cases h : p.publishes = true ∧ p.home = home
  · simp [h]
  · have hgoes : (!(p.publishes && decide (p.home = home))) = true := by
      rw [Bool.not_eq_true', Bool.and_eq_false_imp]
      exact fun hpublishes => decide_eq_false fun hhome => h ⟨hpublishes, hhome⟩
    rw [if_neg h, if_pos hgoes, List.reverse_cons, sincePublished]

theorem pending_published (hp : p.publishes = true) : pending p.home (pages ++ [p]) = [] := by
  rw [pending, sincePublished_snoc, if_pos ⟨hp, rfl⟩]
  rfl

theorem pending_of_ne (hp : p.home ≠ home) : pending home (pages ++ [p]) = pending home pages := by
  rw [pending, sincePublished_snoc, if_neg fun h => hp h.2, List.filter_append,
    List.filter_cons_of_neg (by simpa using hp), List.filter_nil, List.append_nil, pending]

theorem pending_added (hp : p.publishes = false) :
    pending p.home (pages ++ [p]) = pending p.home pages ++ p.addition?.toList := by
  rw [pending, sincePublished_snoc, if_neg (by simp [hp]), List.filter_append,
    List.filter_cons_of_pos (by simp), List.filter_nil, List.filterMap_append, pending]
  cases h : p.addition? <;> simp [h]

theorem pending_untouched (hp : p.publishes = false) (hadd : p.addition? = none) :
    pending home (pages ++ [p]) = pending home pages := by
  by_cases hhome : p.home = home
  · rw [← hhome, pending_added hp, hadd, Option.toList_none, List.append_nil]
  · exact pending_of_ne hhome

theorem batchesAfter_snoc (before pages : List Page) (p : Page) :
    batchesAfter before (pages ++ [p]) = batchesAfter before pages ++
      if p.publishes then [pending p.home (before ++ pages)] else [] := by
  induction pages generalizing before with
  | nil => simp [batchesAfter]
  | cons q pages ih =>
    rw [List.cons_append, batchesAfter, batchesAfter, ih, List.append_assoc, List.append_assoc,
      List.singleton_append]

theorem batches_snoc (pages : List Page) (p : Page) :
    batches (pages ++ [p]) = batches pages ++ if p.publishes then [pending p.home pages] else [] :=
  batchesAfter_snoc [] pages p

theorem versionsMade_snoc (pages : List Page) (p : Page) :
    versionsMade (pages ++ [p]) = versionsMade pages +
      (if p.publishes = true ∧ pending p.home pages ≠ [] then 1 else 0) +
        if p.rotates then 1 else 0 := by
  have hcarried : ((batches (pages ++ [p])).filter (· ≠ [])).length =
      ((batches pages).filter (· ≠ [])).length +
        if p.publishes = true ∧ pending p.home pages ≠ [] then 1 else 0 := by
    rw [batches_snoc, List.filter_append, List.length_append]
    by_cases hpublishes : p.publishes = true
    · by_cases hpending : pending p.home pages = [] <;> simp [hpublishes, hpending]
    · simp [hpublishes]
  rw [versionsMade, hcarried, List.countP_append, List.countP_singleton, versionsMade]
  omega

theorem lastTarget?_append (name : String) (a b : List Staged) :
    lastTarget? name (a ++ b) = (lastTarget? name b).or (lastTarget? name a) := by
  rw [lastTarget?, List.reverse_append, List.find?_append, Option.map_or, lastTarget?, lastTarget?]

theorem lastTarget?_singleton (name : String) (entry : Staged) :
    lastTarget? name [entry] = if name = entry.name then some entry.target else none := by
  by_cases h : name = entry.name
  · simp [lastTarget?, h]
  · simp [lastTarget?, h, Ne.symm h]

theorem lastTarget?_of_not_mem {entries : List Staged} (h : ∀ entry ∈ entries, entry.name ≠ name) :
    lastTarget? name entries = none := by
  rw [lastTarget?, List.find?_eq_none.2, Option.map_none]
  intro entry hentry
  simpa using h entry (List.mem_reverse.1 hentry)

/-- Entries are put in one by one, so that the last one for a name stays. -/
theorem get?_publish (r : Record) (staged : List Staged) (name : String) :
    (r.publish staged).targets.get? name = (lastTarget? name staged).or (r.targets.get? name) := by
  obtain ⟨keys, roles, targets, version⟩ := r
  rw [Record.publish]
  dsimp only
  induction staged generalizing targets with
  | nil => rfl
  | cons entry staged ih =>
    rw [List.foldl_cons, ih, Dict.get?_insert, ← List.singleton_append, lastTarget?_append,
      lastTarget?_singleton, Option.or_assoc]
    split
    · rw [Option.some_or]
    · rw [Option.none_or]

end Requests

/-! ## Records -/

/-- A file that holds a record: nothing else can be read of it. -/
def Files (data : Option ByteArray) (r : Record) : Prop := data = some r.printed ∨ TellsRecord data r

theorem Files.unique {data : Option ByteArray} {r r' : Record} (h : Files data r)
    (htells : TellsRecord data r') : r' = r := by
  rcases h with rfl | h
  · exact tellsRecord_printed htells
  · exact tellsRecord_unique h htells

theorem Files.ne_none {data : Option ByteArray} {r : Record} (h : Files data r) : data ≠ none := by
  rintro rfl
  rcases h with h | h
  · cases h
  · exact tellsRecord_none h

/-- The file of staged additions, which is not there if there are none. -/
def stagedFile (staged : List Staged) : Option ByteArray :=
  if staged = [] then none else some (printedStaged staged)

theorem tellsStaged_stagedFile {staged staged' : List Staged}
    (h : TellsStaged (stagedFile staged) staged') : staged' = staged := by
  rw [stagedFile] at h
  split at h
  · rename_i hnil
    rw [hnil, tellsStaged_none h]
  · exact tellsStaged_printed h

/-- How a record has come about from an earlier one: the target for a name is the one that was
published last, and each publication of something and each rotation has made a new version, which is
a number of 64 bits. -/
structure Record.Published (r first : Record) (pages : List Page) : Prop where
  targets : ∀ name, r.targets.get? name =
    (lastTarget? name (batches pages).flatten).or (first.targets.get? name)
  version : r.version = first.version + versionsMade pages
  version_le : versionsMade pages ≠ 0 → r.version ≤ Text.maxWord

section Records

variable {first r : Record} {pages : List Page} {p : Page}

theorem published_nil (first : Record) : first.Published first [] :=
  ⟨fun _ => rfl, rfl, fun hmade => absurd rfl hmade⟩

/-- A request that neither publishes anything nor rotates a key. -/
theorem Record.Published.kept (h : r.Published first pages)
    (hcarried : p.publishes = true → pending p.home pages = []) (hrotates : p.rotates = false) :
    r.Published first (pages ++ [p]) := by
  have hmade : versionsMade (pages ++ [p]) = versionsMade pages := by
    rw [versionsMade_snoc, if_neg fun hp => hp.2 (hcarried hp.1), hrotates,
      if_neg Bool.false_ne_true, Nat.add_zero]
  refine ⟨fun name => ?_, hmade ▸ h.version, hmade ▸ h.version_le⟩
  rw [batches_snoc, h.targets]
  split
  · rename_i hpublishes
    simp [hcarried hpublishes]
  · rw [List.append_nil]

theorem Record.Published.publish (h : r.Published first pages) (hpublishes : p.publishes = true)
    (hrotates : p.rotates = false) (hpending : pending p.home pages ≠ [])
    (hversion : r.version < Text.maxWord) :
    (r.publish (pending p.home pages)).bump.Published first (pages ++ [p]) := by
  refine ⟨fun name => ?_, ?_, fun _ => hversion⟩
  · have htargets := get?_publish r (pending p.home pages) name
    rw [Record.bump, htargets, h.targets, batches_snoc, if_pos hpublishes, List.flatten_append,
      lastTarget?_append, List.flatten_singleton, Option.or_assoc]
  · have hversion : (r.publish (pending p.home pages)).bump.version = r.version + 1 := rfl
    rw [versionsMade_snoc, if_pos ⟨hpublishes, hpending⟩, hrotates, if_neg Bool.false_ne_true,
      hversion, h.version]
    omega

theorem Record.Published.rotated (h : r.Published first pages) (hpublishes : p.publishes = false)
    (hrotates : p.rotates = true) (hversion : r.version < Text.maxWord) (role id : String) :
    (r.rotated role id).Published first (pages ++ [p]) := by
  refine ⟨fun name => ?_, ?_, fun _ => r.version_rotated role id ▸ hversion⟩
  · rw [r.targets_rotated, batches_snoc, hpublishes, if_neg Bool.false_ne_true, List.append_nil,
      h.targets]
  · rw [r.version_rotated, versionsMade_snoc, if_neg (by simp [hpublishes]), if_pos hrotates,
      h.version]
    omega

end Records

/-! ## Exchanges -/

theorem errand_of_publishes {p : Page} (h : p.publishes = true) :
    ∃ repo, p.errand = .publish repo := by
  rw [Page.publishes, Bool.and_eq_true] at h
  cases herrand : p.errand with
  | publish repo => exact ⟨repo, rfl⟩
  | _ =>
    rw [herrand] at h
    cases h.2

theorem rotates_of_publishes {p : Page} (h : p.publishes = true) : p.rotates = false := by
  obtain ⟨repo, herrand⟩ := errand_of_publishes h
  rw [Page.rotates, herrand]
  exact Bool.and_false _

section Exchanges

variable {first r r' : Record} {pages : List Page} {p q p' q' : Page}

theorem batches_pair (hp : p.publishes = true) (hq : q.publishes = true) (hne : p.home ≠ q.home) :
    batches (pages ++ [p, q]) =
      batches pages ++ [pending p.home pages, pending q.home pages] := by
  rw [← List.singleton_append, ← List.append_assoc, batches_snoc, batches_snoc, if_pos hp,
    if_pos hq, pending_of_ne hne, List.append_assoc, List.singleton_append]

theorem versionsMade_pair (hp : p.publishes = true) (hq : q.publishes = true)
    (hne : p.home ≠ q.home) :
    versionsMade (pages ++ [p, q]) = versionsMade pages +
      ((if pending p.home pages ≠ [] then 1 else 0) + if pending q.home pages ≠ [] then 1 else 0) := by
  rw [← List.singleton_append, ← List.append_assoc, versionsMade_snoc, versionsMade_snoc,
    pending_of_ne hne, rotates_of_publishes hp, rotates_of_publishes hq]
  simp [hp, hq, Nat.add_assoc]

/-- Publications of two clients may be exchanged if no name is in both. -/
theorem Record.Published.exchange (h : r.Published first (pages ++ [p, q]))
    (h' : r'.Published first (pages ++ [q', p'])) (hp : p.publishes = true)
    (hq : q.publishes = true) (hp' : p'.publishes = true) (hq' : q'.publishes = true)
    (hphome : p'.home = p.home) (hqhome : q'.home = q.home) (hne : p.home ≠ q.home)
    (hapart : ∀ a ∈ pending p.home pages, ∀ b ∈ pending q.home pages, a.name ≠ b.name) :
    r'.targets = r.targets ∧ r'.version = r.version := by
  have hne' : q'.home ≠ p'.home := by
    rw [hphome, hqhome]
    exact hne.symm
  refine ⟨Dict.eq_of_get? fun name => ?_, ?_⟩
  · have hnone : lastTarget? name (pending p.home pages) = none ∨
        lastTarget? name (pending q.home pages) = none := by
      by_cases hmem : ∃ a ∈ pending p.home pages, a.name = name
      · obtain ⟨a, ha, rfl⟩ := hmem
        exact .inr (lastTarget?_of_not_mem fun b hb he => hapart a ha b hb he.symm)
      · exact .inl (lastTarget?_of_not_mem fun a ha he => hmem ⟨a, ha, he⟩)
    have hcommutes : (lastTarget? name (pending p.home pages)).or
          (lastTarget? name (pending q.home pages)) =
        (lastTarget? name (pending q.home pages)).or (lastTarget? name (pending p.home pages)) := by
      rcases hnone with hnone | hnone <;> simp [hnone]
    rw [h.targets, h'.targets, batches_pair hp hq hne, batches_pair hq' hp' hne', hphome, hqhome]
    simp only [List.flatten_append, List.flatten_cons, List.flatten_nil, List.append_nil,
      lastTarget?_append, hcommutes]
  · rw [h.version, h'.version, versionsMade_pair hp hq hne, versionsMade_pair hq' hp' hne', hphome,
      hqhome, Nat.add_comm (if pending p.home pages ≠ [] then 1 else 0)]

end Exchanges

/-! ## Clients -/

theorem stagedPlace_inj {home home' : Location} {repo : String}
    (h : stagedPlace home repo = stagedPlace home' repo) : home = home' := by
  simpa [stagedPlace] using h

theorem stagedPlace_ne_rootPlace (home home' : Location) (repo repo' : String) :
    stagedPlace home repo ≠ rootPlace home' repo' := by
  rw [stagedPlace, rootPlace]
  exact fun h => absurd (List.append_inj' h rfl).2 (by decide)

theorem stagedPlace_ne_keysPlace (home home' : Location) (repo : String) :
    stagedPlace home repo ≠ keysPlace home' := by
  have hkeys : keysPlace home' = home' ++ ["private"] ++ ["keys.json"] := by simp [keysPlace]
  rw [stagedPlace, hkeys]
  exact fun h => absurd (List.append_inj' h rfl).2 (by decide)

/-- The state of a repository: its record and the staged additions of all clients. -/
structure Serving (shelf : Location) (repo : String) (first : Record) (pages : List Page)
    (f : Tree.Contents) : Prop where
  record : ∃ r : Record, Files (f (recordPlace shelf repo)) r ∧ r.Published first pages
  staged : ∀ home, Apart shelf home → f (stagedPlace home repo) = stagedFile (pending home pages)

section Clients

variable {keyName : Nat → String} {shelf : Location} {repo : String} {first : Record}
  {pages : List Page} {p : Page} {f f' : Tree.Contents} {made' : Nat}

theorem Serving.kept (h : Serving shelf repo first pages f) (hpublishes : p.publishes = false)
    (hrotates : p.rotates = false) (hadd : p.addition? = none)
    (hrecord : f' (recordPlace shelf repo) = f (recordPlace shelf repo))
    (hstaged : ∀ home, Apart shelf home → f' (stagedPlace home repo) = f (stagedPlace home repo)) :
    Serving shelf repo first (pages ++ [p]) f' := by
  obtain ⟨r, hfiles, hpublished⟩ := h.record
  refine ⟨⟨r, hrecord ▸ hfiles, hpublished.kept (by simp [hpublishes]) hrotates⟩, ?_⟩
  intro home hapart
  rw [hstaged home hapart, h.staged home hapart, pending_untouched hpublishes hadd]

/-- A request changes the additions of its own client only. -/
theorem Serving.staged_by (h : Serving shelf repo first pages f)
    (hown : f' (stagedPlace p.home repo) = stagedFile (pending p.home (pages ++ [p])))
    (hother : ∀ home, Apart shelf home → home ≠ p.home →
      f' (stagedPlace home repo) = f (stagedPlace home repo)) :
    ∀ home, Apart shelf home →
      f' (stagedPlace home repo) = stagedFile (pending home (pages ++ [p])) := by
  intro home hapart
  by_cases hhome : home = p.home
  · rw [hhome, hown]
  · rw [hother home hapart hhome, h.staged home hapart, pending_of_ne (Ne.symm hhome)]

/-- A request leaves the additions of all other clients alone. -/
theorem Performs.staged_kept {home other : Location} {files : String → Except Fault ByteArray}
    {made : Nat} {errand : Errand}
    (h : Performs keyName shelf home files f made errand f' made')
    (hrepo : ∀ repo' ∈ errand.repo?, repo' = repo) (hapart : Apart shelf other)
    (hne : other ≠ home) : f' (stagedPlace other repo) = f (stagedPlace other repo) := by
  refine h.frame fun hmem => ?_
  rcases Errand.of_mem_places hmem with he | ⟨repo', hrepo', he | he | ⟨he, -⟩⟩
  · exact stagedPlace_ne_keysPlace other home repo he
  · exact hapart.ne_stagedPlace (prefix_recordPlace shelf repo') repo he.symm
  · obtain rfl := hrepo repo' hrepo'
    exact hne (stagedPlace_inj he)
  · exact stagedPlace_ne_rootPlace other home repo repo' he

/-- One request more: what the client has staged. -/
theorem Serving.step_staged (h : Serving shelf repo first pages p.before.disk.content)
    (hdone : p.done = true) (hrepo : ∀ repo' ∈ p.errand.repo?, repo' = repo)
    (hapart : Apart shelf p.home)
    (hperforms : Performs keyName shelf p.home p.files p.before.disk.content p.before.made p.errand
      f' made') : f' (stagedPlace p.home repo) = stagedFile (pending p.home (pages ++ [p])) := by
  have hpublishes : p.publishes = p.errand.publishes := by
    rw [Page.publishes, hdone, Bool.true_and]
  have hadd : p.addition? = p.errand.addition? p.files := by rw [Page.addition?, if_pos hdone]
  have hown := h.staged p.home hapart
  have hrecord := (hapart.ne_stagedPlace (prefix_recordPlace shelf repo) repo).symm
  have hkeys := stagedPlace_ne_keysPlace p.home p.home repo
  have hroot := stagedPlace_ne_rootPlace p.home p.home repo repo
  generalize herrand : p.errand = errand at hperforms hrepo hpublishes hadd
  cases hperforms with
  | add hdata htells =>
    obtain rfl := hrepo _ rfl
    rw [hown] at htells
    obtain rfl := tellsStaged_stagedFile htells
    rw [Errand.addition?, hdata] at hadd
    rw [Tree.Contents.put_self, pending_added hpublishes, hadd, stagedFile, if_neg]
    · rfl
    · exact List.append_ne_nil_of_right_ne_nil _ (List.cons_ne_nil _ _)
  | publish =>
    obtain rfl := hrepo _ rfl
    rw [Tree.Contents.put_of_ne hroot, Tree.Contents.put_self, pending_published hpublishes]
    rfl
  | publishNothing _ hlist =>
    obtain rfl := hrepo _ rfl
    rw [hown] at hlist
    rw [Tree.Contents.put_of_ne hroot, hown, ← tellsStaged_stagedFile hlist,
      pending_published hpublishes]
  | init | rotate =>
    obtain rfl := hrepo _ rfl
    rw [Tree.Contents.put_of_ne hroot, Tree.Contents.put_of_ne hkeys,
      Tree.Contents.put_of_ne hrecord, hown, pending_untouched hpublishes hadd]
  | list =>
    obtain rfl := hrepo _ rfl
    rw [Tree.Contents.put_of_ne hroot, hown, pending_untouched hpublishes hadd]
  | verify | keys | other => rw [hown, pending_untouched hpublishes hadd]

/-- One request more: the record. -/
theorem Serving.step_record (h : Serving shelf repo first pages p.before.disk.content)
    (hdone : p.done = true) (hrepo : ∀ repo' ∈ p.errand.repo?, repo' = repo)
    (hapart : Apart shelf p.home)
    (hperforms : Performs keyName shelf p.home p.files p.before.disk.content p.before.made p.errand
      f' made') :
    ∃ r : Record, Files (f' (recordPlace shelf repo)) r ∧ r.Published first (pages ++ [p]) := by
  have hpublishes : p.publishes = p.errand.publishes := by
    rw [Page.publishes, hdone, Bool.true_and]
  have hrotates : p.rotates = p.errand.rotates := by rw [Page.rotates, hdone, Bool.true_and]
  obtain ⟨r, hfiles, hpublished⟩ := h.record
  have hown := h.staged p.home hapart
  have hbelow := prefix_recordPlace shelf repo
  have hkeys := hapart.ne_keysPlace hbelow
  have hstaged := hapart.ne_stagedPlace hbelow
  have hroot := hapart.ne_rootPlace hbelow
  have hidle : p.errand.publishes = false → p.errand.rotates = false →
      r.Published first (pages ++ [p]) := fun hno hno' =>
    hpublished.kept (by simp [hpublishes, hno]) (hrotates.trans hno')
  generalize herrand : p.errand = errand at hperforms hrepo hpublishes hrotates hidle
  cases hperforms with
  | init hnone =>
    obtain rfl := hrepo _ rfl
    exact absurd hnone hfiles.ne_none
  | publish htells hlist hne hversion =>
    obtain rfl := hrepo _ rfl
    obtain rfl := hfiles.unique htells
    rw [hown] at hlist
    obtain rfl := tellsStaged_stagedFile hlist
    refine ⟨_, .inl ?_, hpublished.publish hpublishes hrotates hne hversion⟩
    rw [Tree.Contents.put_of_ne (hroot _), Tree.Contents.put_of_ne (hstaged _),
      Tree.Contents.put_self]
  | publishNothing _ hlist =>
    obtain rfl := hrepo _ rfl
    rw [hown] at hlist
    have hnil := tellsStaged_stagedFile hlist
    refine ⟨r, ?_, hpublished.kept (fun _ => hnil.symm) hrotates⟩
    rwa [Tree.Contents.put_of_ne (hroot _)]
  | @rotate repo role r keys htells hversion =>
    obtain rfl := hrepo _ rfl
    obtain rfl := hfiles.unique htells
    refine ⟨_, .inl ?_, hpublished.rotated hpublishes hrotates hversion role (keyName p.before.made)⟩
    rw [Tree.Contents.put_of_ne (hroot _), Tree.Contents.put_of_ne hkeys, Tree.Contents.put_self]
  | add =>
    refine ⟨r, ?_, hidle rfl rfl⟩
    rwa [Tree.Contents.put_of_ne (hstaged _)]
  | list =>
    refine ⟨r, ?_, hidle rfl rfl⟩
    rwa [Tree.Contents.put_of_ne (hroot _)]
  | verify | keys | other => exact ⟨r, hfiles, hidle rfl rfl⟩

/-- One request more. -/
theorem Serving.step (h : Serving shelf repo first pages p.before.disk.content)
    (hdone : p.done = true) (hrepo : ∀ repo' ∈ p.errand.repo?, repo' = repo)
    (hapart : Apart shelf p.home)
    (hperforms : Performs keyName shelf p.home p.files p.before.disk.content p.before.made p.errand
      f' made') : Serving shelf repo first (pages ++ [p]) f' := by
  refine ⟨h.step_record hdone hrepo hapart hperforms, h.staged_by ?_ fun home hhome hne => ?_⟩
  · exact h.step_staged hdone hrepo hapart hperforms
  · exact hperforms.staged_kept hrepo hhome hne

/-- A request that did not end well. -/
theorem Serving.idle (h : Serving shelf repo first pages f) (hidle : p.done = false) :
    Serving shelf repo first (pages ++ [p]) f :=
  h.kept (by simp [Page.publishes, hidle]) (by simp [Page.rotates, hidle])
    (by simp [Page.addition?, hidle]) rfl fun _ _ => rfl

/-- A publication of nothing changes nothing on the server. -/
theorem Serving.republish (h : Serving shelf repo first pages p.before.disk.content)
    (herrand : p.errand = .publish repo) (hpending : pending p.home pages = [])
    (hapart : Apart shelf p.home)
    (hperforms : Performs keyName shelf p.home p.files p.before.disk.content p.before.made p.errand
      f' made') {place : Location} (hplace : shelf <+: place) :
    f' place = p.before.disk.content place := by
  have hown := h.staged p.home hapart
  rw [hpending] at hown
  rw [herrand] at hperforms
  cases hperforms with
  | publish _ hlist hne =>
    rw [hown] at hlist
    exact absurd (tellsStaged_stagedFile hlist) hne
  | publishNothing =>
    rw [Tree.Contents.put_of_ne (hapart.ne_rootPlace hplace repo)]

end Clients

/-! ## Histories -/

section Histories

variable {keyName : Nat → String} {shelf : Location} {repo : String} {first : Record}
  {s t : Store} {pages : List Page}

theorem Chronicle.serving (hs : s.disk.Regular)
    (hfirst : TellsRecord (s.disk.content (recordPlace shelf repo)) first)
    (hnone : ∀ home, Apart shelf home → s.disk.content (stagedPlace home repo) = none)
    (h : Chronicle keyName shelf s pages t)
    (hrepo : ∀ p ∈ pages, ∀ repo' ∈ p.errand.repo?, repo' = repo) :
    Serving shelf repo first pages t.disk.content := by
  have hinduct := h.induct (P := fun pages t =>
    (∀ p ∈ pages, ∀ repo' ∈ p.errand.repo?, repo' = repo) →
      Serving shelf repo first pages t.disk.content) hs
  refine (hinduct (fun _ => ?_) ?_ ?_).2 hrepo
  · exact ⟨⟨first, .inr hfirst, published_nil first⟩, hnone⟩
  · intro pages p hserving hidle hrepo
    exact (hserving (List.forall_mem_append.1 hrepo).1).idle hidle
  · intro pages p u hserving hdone hapart hperforms hrepo
    obtain ⟨hbefore, hlast⟩ := List.forall_mem_append.1 hrepo
    exact (hserving hbefore).step hdone (hlast p (List.mem_singleton_self p)) hapart hperforms

/-- Of a repository that all requests are about, at every point: a client's staged additions are those
it has made since it last published; the record has the targets that were published last and a new
version for each publication of something and each rotation, which never goes beyond 64 bits, as the
requests that would need a larger one fail; to publish again at once changes nothing on the server;
and two publications by different clients that have no name in common can change places. -/
theorem Chronicle.nothing_lost (hs : s.disk.Regular)
    (hfirst : TellsRecord (s.disk.content (recordPlace shelf repo)) first)
    (hnone : ∀ home, Apart shelf home → s.disk.content (stagedPlace home repo) = none)
    (h : Chronicle keyName shelf s pages t)
    (hrepo : ∀ p ∈ pages, ∀ repo' ∈ p.errand.repo?, repo' = repo) :
    (∀ home, Apart shelf home →
      t.disk.content (stagedPlace home repo) = stagedFile (pending home pages)) ∧
    (∀ earlier p q, pages = earlier ++ [p, q] → p.publishes = true → q.errand = p.errand →
      q.home = p.home → ∀ place, shelf <+: place →
        t.disk.content place = q.before.disk.content place) ∧
    ∃ r : Record, Files (t.disk.content (recordPlace shelf repo)) r ∧ r.Published first pages ∧
      ∀ earlier p q, pages = earlier ++ [p, q] → p.publishes = true → q.publishes = true →
        p.home ≠ q.home →
        (∀ a ∈ pending p.home earlier, ∀ b ∈ pending q.home earlier, a.name ≠ b.name) →
        ∀ b b' t', Chronicle keyName shelf s
            (earlier ++ [{ q with before := b }, { p with before := b' }]) t' →
          ∃ r' : Record, Files (t'.disk.content (recordPlace shelf repo)) r' ∧
            r'.targets = r.targets ∧ r'.version = r.version := by
  have hserving := h.serving hs hfirst hnone hrepo
  obtain ⟨r, hfiles, hpublished⟩ := hserving.record
  refine ⟨hserving.staged, ?_, r, hfiles, hpublished, ?_⟩
  · rintro earlier p q rfl hp herrand hhome place hplace
    rw [← List.singleton_append, ← List.append_assoc] at h
    obtain ⟨hbefore, hidle | ⟨-, hapart, hperforms⟩⟩ := h.last hs
    · rw [hidle.2]
    · have hrepo' : ∀ p' ∈ earlier ++ [p], ∀ repo' ∈ p'.errand.repo?, repo' = repo :=
        fun p' hp' => hrepo p' (by simpa [or_assoc] using Or.inl (List.mem_append.1 hp'))
      obtain ⟨repo', hpublish⟩ := errand_of_publishes hp
      obtain rfl := hrepo p (by simp) repo' (by rw [hpublish]; rfl)
      exact (hbefore.serving hs hfirst hnone hrepo').republish (herrand.trans hpublish)
        (by rw [hhome, pending_published hp]) hapart hperforms hplace
  · rintro earlier p q rfl hp hq hne hapart b b' t' h'
    have hrepo' : ∀ p' ∈ earlier ++ [{ q with before := b }, { p with before := b' }],
        ∀ repo' ∈ p'.errand.repo?, repo' = repo := by
      intro p' hp'
      rcases List.mem_append.1 hp' with hp' | hp'
      · exact hrepo p' (List.mem_append_left _ hp')
      · rcases List.mem_cons.1 hp' with rfl | hp'
        · exact hrepo q (by simp)
        · rw [List.mem_singleton.1 hp']
          exact hrepo p (by simp)
    obtain ⟨r', hfiles', hpublished'⟩ := (h'.serving hs hfirst hnone hrepo').record
    exact ⟨r', hfiles', hpublished.exchange hpublished' hp hq hp hq rfl rfl hne hapart⟩

end Histories

/-- A server that knows the demonstration's repository. -/
def demoServer : Store := ⟨4, demoTree.put ["srv", "demo.json"] (.file demoRecord.printed false)⟩

def demoAddition : Page :=
  ⟨demoRequest ["add", "demo", "note", "/note"] "", ["home"], demoServer, true⟩

def demoPublication (t : Store) : Page := ⟨demoRequest ["publish", "demo"] "", ["home"], t, true⟩

def demoStaged : List Staged := [⟨"note", .ofContent "note".toUTF8⟩]

theorem grounded_demoServer : demoPremises.Grounded demoServer.disk :=
  grounded_put grounded_demoTree rfl (by decide) (by decide) (by decide)

theorem regular_demoServer : demoServer.disk.Regular :=
  Tree.Regular.put regular_demoTree (rfl : demoTree.find? ["srv"] = some .directory) (by decide)
    fun h => nomatch h

/-- No client has staged anything yet. -/
theorem content_demoServer (home : Location) :
    demoServer.disk.content (stagedPlace home "demo") = none := by
  have hput : ∀ (t : Tree) (place : Location) (name : String) (node : Node),
      name ≠ "changelist.json" → (t.put (place ++ [name]) node).find? (stagedPlace home "demo") =
        t.find? (stagedPlace home "demo") := by
    intro t place name node hname
    rw [Tree.find?_put t (by simp), if_neg]
    intro he
    exact hname (List.cons.inj (List.append_inj' he rfl).2).1.symm
  have hempty : Tree.empty.find? (stagedPlace home "demo") = none := by
    cases hplace : stagedPlace home "demo" with
    | nil => simp [stagedPlace] at hplace
    | cons name names => rfl
  exact Tree.content_of_none ((hput demoTree ["srv"] "demo.json" _ (by decide)).trans
    ((hput demoGround [] "home" _ (by decide)).trans ((hput _ [] "note" _ (by decide)).trans
      ((hput _ [] "srv" _ (by decide)).trans hempty))))

theorem housed_demoServer : Housed demoServer.disk ["home"] "demo" .empty := by
  refine housed_demoTree.congr fun place hplace => ?_
  refine (Tree.find?_put demoTree (by decide) _ place).trans (if_neg ?_)
  rintro rfl
  exact absurd hplace (by decide)

theorem goes_demoAddition : ∃ output, (demoVisit demoServer.disk).Goes
    (command demoPremises.office "/srv" "/home" ["add", "demo", "note", "/note"])
    ⟨some demoRecord, .empty, 4, none, ""⟩ ()
    ⟨some demoRecord, ⟨[], demoStaged, none⟩, 4, none, output⟩ := by
  have hc := sound_demoVisit grounded_demoServer
  have hread : (demoVisit demoServer.disk).Goes (readBytes [] "/note")
      ⟨some demoRecord, .empty, 4, none, ""⟩ "note".toUTF8 ⟨some demoRecord, .empty, 4, none, ""⟩ :=
    goes_readBytes hc (rfl : demoGround.locate [] "/note" = .ok ["note"])
      (by decide +kernel : ["note"] ≠ demoPremises.recordPlace) (by decide : ¬["home"] <+: ["note"])
      rfl
  exact ⟨_, goes_add hc hread (by decide) nofun⟩

theorem goes_demoPublication (input : Option (List UInt8)) : ∃ w, (demoVisit demoServer.disk).Goes
    (command demoPremises.office "/srv" "/home" ["publish", "demo"])
    ⟨some demoRecord, ⟨[], demoStaged, none⟩, 4, input, ""⟩ () w := by
  have hc := sound_demoVisit grounded_demoServer
  have hbounded : (demoRecord.publish demoStaged).bump.Bounded := ⟨by decide, by decide +kernel⟩
  exact ⟨_, (goes_login hc nofun).bind (goes_publish hc rfl (List.cons_ne_nil _ _) hbounded)⟩

theorem demo_publication : ∃ t u : Store,
    Chronicle Main.keyName ["srv"] demoServer [demoAddition, demoPublication t] u := by
  have hfits : (demoVisit demoServer.disk).Fits
      (deskOf (demoRequest ["add", "demo", "note", "/note"] "") 4 demoServer.disk)
      ⟨some demoRecord, .empty, 4, none, ""⟩ :=
    ⟨⟨bounded_demoRecord, false, rfl⟩, housed_demoServer, fun _ _ _ => rfl, rfl, nofun, rfl⟩
  obtain ⟨_, hadds⟩ := goes_demoAddition
  obtain ⟨t, hadded, -, hstaged⟩ := Chronicle.nil.goes_demo (s := demoServer) grounded_demoServer
    (by decide) (by decide) hadds hfits
  obtain ⟨w, hpublishes⟩ := goes_demoPublication _
  obtain ⟨u, hpublished, -, -⟩ := hadded.goes_demo (i := "") grounded_demoServer
    (by decide) (by decide) hpublishes (hstaged _)
  exact ⟨t, u, hpublished⟩

/-- In the demonstration an addition is published. -/
theorem nothing_lost_demo : ∃ (t u : Store) (r : Record),
    Chronicle Main.keyName ["srv"] demoServer [demoAddition, demoPublication t] u ∧
      Files (u.disk.content (recordPlace ["srv"] "demo")) r ∧
      r.targets.get? "note" = some (.ofContent "note".toUTF8) ∧ r.version = 2 := by
  obtain ⟨t, u, h⟩ := demo_publication
  have htells : TellsRecord (demoServer.disk.content (recordPlace ["srv"] "demo")) demoRecord :=
    ⟨_, _, rfl, Text.fromUTF8?_toUTF8 _, readAs_record bounded_demoRecord⟩
  have hrepo : ∀ p ∈ [demoAddition, demoPublication t], ∀ repo ∈ p.errand.repo?, repo = "demo" := by
    rw [List.forall_mem_cons, List.forall_mem_singleton]
    refine ⟨?_, ?_⟩ <;>
    · rintro _ ⟨⟩
      rfl
  obtain ⟨-, -, r, hfiles, hpublished, -⟩ := Chronicle.nothing_lost regular_demoServer htells
    (fun home _ => content_demoServer home) h hrepo
  have hbatches : batches [demoAddition, demoPublication t] = [demoStaged] := rfl
  refine ⟨t, u, r, h, hfiles, ?_, ?_⟩
  · rw [hpublished.targets, hbatches]
    rfl
  · rw [hpublished.version, versionsMade, hbatches]
    rfl

end Notary
end TrustTrial
