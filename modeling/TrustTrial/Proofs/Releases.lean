import Mathlib.Logic.Function.Basic
import TrustTrial.Proofs.Digests
import TrustTrial.Proofs.Listings
import TrustTrial.Proofs.Neighbours
import TrustTrial.Proofs.Publishing

/-!
# TrustTrial.Proofs.Releases

Which contents a server vouches for, with any number of clients and repositories. `Waits` and `Latest`
tell from the requests alone which content is staged under a name and which one was published last;
`Stock` computes both, `Stock.Stored` says that the files agree with it, and every request keeps that
up. So a verification succeeds exactly for a content with the length and the digest of the latest one
(`Chronicle.verified`). Repositories count as one if their records have one name.
-/

namespace TrustTrial
namespace Notary

open Disk Step
open Text (maxWord)

/-! ## What has been published, told from the requests -/

/-- The addition that a page has made: where it is staged, its name and its content. -/
def Page.added? (p : Page) : Option (Location × String × ByteArray) :=
  match p.done, p.errand with
  | true, .add repo name file =>
    (p.files file).toOption.map fun data => (stagedPlace p.home repo, name, data)
  | _, _ => none

/-- The publication that a page has made: where its additions were staged, and the name of the
record. -/
def Page.published? (p : Page) : Option (Location × String) :=
  match p.done, p.errand with
  | true, .publish repo => some (stagedPlace p.home repo, recordName repo)
  | _, _ => none

/-- A content waits under a name: it was added there, and since then neither has another one been
added nor anything been published from there. -/
inductive Waits (place : Location) (name : String) (data : ByteArray) : List Page → Prop
  | add {pages : List Page} {p : Page} :
      p.added? = some (place, name, data) → Waits place name data (pages ++ [p])
  | stay {pages : List Page} {p : Page} :
      Waits place name data pages → (∀ other, p.added? ≠ some (place, name, other)) →
      (∀ record, p.published? ≠ some (place, record)) → Waits place name data (pages ++ [p])

/-- A content is the latest one under a name: it was published from where it waited, and no
publication since then has found another one of that name. -/
inductive Latest (record name : String) (data : ByteArray) : List Page → Prop
  | publish {pages : List Page} {p : Page} {place : Location} :
      Waits place name data pages → p.published? = some (place, record) →
      Latest record name data (pages ++ [p])
  | stay {pages : List Page} {p : Page} :
      Latest record name data pages →
      (∀ place, p.published? = some (place, record) → ∀ other, ¬Waits place name other pages) →
      Latest record name data (pages ++ [p])

/-- Contents that wait for their publication, by the place where they are staged, and contents that
have been published, by the name of the record; each with its name, the latest one last. -/
structure Stock where
  waiting : Location → List (String × ByteArray)
  released : String → List (String × ByteArray)

namespace Stock

def empty : Stock := ⟨fun _ => [], fun _ => []⟩

def wait (k : Stock) (place : Location) (entries : List (String × ByteArray)) : Stock :=
  { k with waiting := Function.update k.waiting place entries }

def release (k : Stock) (record : String) (entries : List (String × ByteArray)) : Stock :=
  { k with released := Function.update k.released record entries }

def add (k : Stock) (place : Location) (name : String) (data : ByteArray) : Stock :=
  k.wait place (k.waiting place ++ [(name, data)])

def publish (k : Stock) (place : Location) (record : String) : Stock :=
  (k.release record (k.released record ++ k.waiting place)).wait place []

def after (k : Stock) (p : Page) : Stock :=
  match p.added?, p.published? with
  | some (place, name, data), _ => k.add place name data
  | none, some (place, record) => k.publish place record
  | none, none => k

@[simp] theorem wait_waiting (k : Stock) (place : Location) (entries : List (String × ByteArray)) :
    (k.wait place entries).waiting = Function.update k.waiting place entries := rfl

@[simp] theorem release_released (k : Stock) (record : String)
    (entries : List (String × ByteArray)) :
    (k.release record entries).released = Function.update k.released record entries := rfl

@[simp] theorem wait_released (k : Stock) (place : Location) (entries : List (String × ByteArray)) :
    (k.wait place entries).released = k.released := rfl

@[simp] theorem release_waiting (k : Stock) (record : String)
    (entries : List (String × ByteArray)) : (k.release record entries).waiting = k.waiting := rfl

theorem wait_self (k : Stock) (place : Location) : k.wait place (k.waiting place) = k := by
  rw [wait, Function.update_eq_self]

theorem release_self (k : Stock) (record : String) : k.release record (k.released record) = k := by
  rw [release, Function.update_eq_self]

/-- A publication of nothing. -/
theorem publish_nothing {k : Stock} {place : Location} (h : k.waiting place = []) (record : String) :
    k.publish place record = k := by
  rw [publish, h, List.append_nil, release_self]
  nth_rewrite 2 [← k.wait_self place]
  rw [h]

end Stock

/-- What there is after some pages, if there was nothing at first. -/
def stockOf (pages : List Page) : Stock := pages.foldl Stock.after .empty

theorem stockOf_snoc (pages : List Page) (p : Page) :
    stockOf (pages ++ [p]) = (stockOf pages).after p := by
  simp [stockOf]

section Pages

variable {pages : List Page} {p : Page} {repo name file record : String} {data : ByteArray}
  {place : Location}

theorem added?_add (hdone : p.done = true) (herrand : p.errand = .add repo name file)
    (hdata : p.files file = .ok data) :
    p.added? = some (stagedPlace p.home repo, name, data) := by
  simp only [Page.added?, hdone, herrand, hdata]
  rfl

theorem added?_eq_none (h : ∀ repo name file, p.errand ≠ .add repo name file) : p.added? = none := by
  rw [Page.added?]
  split
  · exact absurd ‹_› (h _ _ _)
  · rfl

theorem published?_publish (hdone : p.done = true) (herrand : p.errand = .publish repo) :
    p.published? = some (stagedPlace p.home repo, recordName repo) := by
  simp only [Page.published?, hdone, herrand]

theorem published?_eq_none (h : ∀ repo, p.errand ≠ .publish repo) : p.published? = none := by
  rw [Page.published?]
  split
  · exact absurd ‹_› (h _)
  · rfl

/-- A page that publishes adds nothing. -/
theorem added?_of_published? (h : p.published? = some (place, record)) : p.added? = none := by
  refine added?_eq_none fun repo name file herrand => ?_
  rw [published?_eq_none (by simp [herrand])] at h
  cases h

theorem Stock.after_added (k : Stock) (h : p.added? = some (place, name, data)) :
    k.after p = k.add place name data := by
  rw [Stock.after, h]

theorem Stock.after_published (k : Stock) (h : p.published? = some (place, record)) :
    k.after p = k.publish place record := by
  rw [Stock.after, added?_of_published? h, h]

theorem Stock.after_none (k : Stock) (hadded : p.added? = none) (hpublished : p.published? = none) :
    k.after p = k := by
  rw [Stock.after, hadded, hpublished]

theorem Stock.after_idle (k : Stock) (hidle : p.done = false) : k.after p = k :=
  k.after_none (by simp only [Page.added?, hidle]) (by simp only [Page.published?, hidle])

theorem Stock.after_other (k : Stock) (hadd : ∀ repo name file, p.errand ≠ .add repo name file)
    (hpublish : ∀ repo, p.errand ≠ .publish repo) : k.after p = k :=
  k.after_none (added?_eq_none hadd) (published?_eq_none hpublish)

/-! ### The stock tells both -/

theorem waits_nil : ¬Waits place name data [] := by
  intro h
  generalize hpages : ([] : List Page) = pages at h
  cases h <;> simp at hpages

theorem waits_concat : Waits place name data (pages ++ [p]) ↔
    p.added? = some (place, name, data) ∨
      Waits place name data pages ∧ (∀ other, p.added? ≠ some (place, name, other)) ∧
        ∀ record, p.published? ≠ some (place, record) := by
  refine ⟨fun h => ?_, fun h => h.elim .add fun h => .stay h.1 h.2.1 h.2.2⟩
  generalize hpages : pages ++ [p] = pages' at h
  cases h with
  | add hadded =>
    obtain rfl := (List.cons.inj (List.append_inj' hpages rfl).2).1
    exact .inl hadded
  | stay hwaits hadded hpublished =>
    obtain ⟨rfl, hp⟩ := List.append_inj' hpages rfl
    obtain rfl := (List.cons.inj hp).1
    exact .inr ⟨hwaits, hadded, hpublished⟩

/-- The last content of a name that waits at a place, after an addition. -/
theorem Stock.lastEntry_waiting_add (k : Stock) (place' : Location) (name' : String)
    (data' : ByteArray) : lastEntry name ((k.add place' name' data').waiting place) =
      if place' = place ∧ name' = name then some data' else lastEntry name (k.waiting place) := by
  rw [Stock.add, Stock.wait_waiting]
  by_cases hplace : place' = place
  · subst hplace
    rw [Function.update_self, lastEntry_concat]
    simp only [true_and]
  · rw [Function.update_of_ne (Ne.symm hplace), if_neg fun h => hplace h.1]

theorem Stock.lastEntry_waiting_publish (k : Stock) (place' : Location) (record : String) :
    lastEntry name ((k.publish place' record).waiting place) =
      if place' = place then none else lastEntry name (k.waiting place) := by
  rw [Stock.publish, Stock.wait_waiting]
  by_cases hplace : place' = place
  · subst hplace
    rw [Function.update_self, if_pos rfl, lastEntry_nil]
  · rw [Function.update_of_ne (Ne.symm hplace), if_neg hplace, Stock.release_waiting]

theorem Stock.lastEntry_released_publish (k : Stock) (place : Location) (record' : String) :
    lastEntry name ((k.publish place record').released record) =
      if record' = record then
        (lastEntry name (k.waiting place)).or (lastEntry name (k.released record))
      else lastEntry name (k.released record) := by
  rw [Stock.publish, Stock.wait_released, Stock.release_released]
  by_cases hrecord : record' = record
  · subst hrecord
    rw [Function.update_self, if_pos rfl, lastEntry_append]
  · rw [Function.update_of_ne (Ne.symm hrecord), if_neg hrecord]

/-- A content waits if it is the last one of its name in the stock. -/
theorem waits_iff :
    Waits place name data pages ↔ lastEntry name ((stockOf pages).waiting place) = some data := by
  induction pages using List.reverseRecOn with
  | nil => exact iff_of_false waits_nil (by simp [stockOf, Stock.empty])
  | append_singleton pages p ih =>
    rw [waits_concat, stockOf_snoc, ih]
    cases hadded : p.added? with
    | some addition =>
      obtain ⟨place', name', data'⟩ := addition
      have hpublished : ∀ record, p.published? ≠ some (place, record) := by
        intro record h
        rw [added?_of_published? h] at hadded
        cases hadded
      rw [Stock.after_added _ hadded, Stock.lastEntry_waiting_add]
      by_cases h : place' = place ∧ name' = name
      · obtain ⟨rfl, rfl⟩ := h
        simp
      · rw [if_neg h]
        have hne : ∀ other, some (place', name', data') ≠ some (place, name, other) := by
          rintro _ ⟨⟩
          exact h ⟨rfl, rfl⟩
        exact ⟨fun hor => (hor.resolve_left (hne data)).1, fun hlast => .inr ⟨hlast, hne, hpublished⟩⟩
    | none =>
      cases hpublished : p.published? with
      | some publication =>
        obtain ⟨place', record⟩ := publication
        rw [Stock.after_published _ hpublished, Stock.lastEntry_waiting_publish]
        by_cases hplace : place' = place <;> simp [hplace]
      | none =>
        rw [Stock.after_none _ hadded hpublished]
        simp

theorem latest_nil : ¬Latest record name data [] := by
  intro h
  generalize hpages : ([] : List Page) = pages at h
  cases h <;> simp at hpages

theorem latest_concat : Latest record name data (pages ++ [p]) ↔
    (∃ place, Waits place name data pages ∧ p.published? = some (place, record)) ∨
      Latest record name data pages ∧
        ∀ place, p.published? = some (place, record) → ∀ other, ¬Waits place name other pages := by
  refine ⟨fun h => ?_, fun h => h.elim (fun ⟨_, hw, hp⟩ => .publish hw hp) fun h => .stay h.1 h.2⟩
  generalize hpages : pages ++ [p] = pages' at h
  cases h with
  | publish hwaits hpublished =>
    obtain ⟨rfl, hp⟩ := List.append_inj' hpages rfl
    obtain rfl := (List.cons.inj hp).1
    exact .inl ⟨_, hwaits, hpublished⟩
  | stay hlatest hother =>
    obtain ⟨rfl, hp⟩ := List.append_inj' hpages rfl
    obtain rfl := (List.cons.inj hp).1
    exact .inr ⟨hlatest, hother⟩

/-- A content is the latest one if it is the last one of its name that the stock has released. -/
theorem latest_iff :
    Latest record name data pages ↔ lastEntry name ((stockOf pages).released record) = some data := by
  induction pages using List.reverseRecOn with
  | nil => exact iff_of_false latest_nil (by simp [stockOf, Stock.empty])
  | append_singleton pages p ih =>
    rw [latest_concat, stockOf_snoc, ih]
    simp only [waits_iff]
    cases hpublished : p.published? with
    | some publication =>
      obtain ⟨place, record'⟩ := publication
      rw [Stock.after_published _ hpublished, Stock.lastEntry_released_publish]
      by_cases hrecord : record' = record
      · subst hrecord
        cases hwaiting : lastEntry name ((stockOf pages).waiting place) <;> simp [hwaiting]
      · simp [hrecord]
    | none =>
      have hsame : ((stockOf pages).after p).released = (stockOf pages).released := by
        cases hadded : p.added? with
        | some addition => rw [Stock.after_added _ hadded, Stock.add, Stock.wait_released]
        | none => rw [Stock.after_none _ hadded hpublished]
      rw [hsame]
      simp

end Pages

/-! ## What the files say of it -/

/-- The record has the contents that were published last. -/
def Record.Carries (r : Record) (released : List (String × ByteArray)) : Prop :=
  ∀ name, r.targets.get? name = (lastEntry name released).map Target.ofContent

/-- The staged addition of a content. -/
def additionOf (e : String × ByteArray) : Staged := ⟨e.1, .ofContent e.2⟩

theorem lastTarget?_map (name : String) (entries : List (String × ByteArray)) :
    lastTarget? name (entries.map additionOf) = (lastEntry name entries).map Target.ofContent := by
  induction entries using List.reverseRecOn with
  | nil => rfl
  | append_singleton entries e ih =>
    rw [List.map_append, List.map_singleton, lastTarget?_append, lastTarget?_singleton, ih,
      lastEntry_concat]
    by_cases h : e.1 = name
    · simp [additionOf, h]
    · simp [additionOf, h, Ne.symm h]

theorem Record.Carries.publish {r : Record} {released : List (String × ByteArray)}
    (h : r.Carries released) (entries : List (String × ByteArray)) :
    (r.publish (entries.map additionOf)).bump.Carries (released ++ entries) := by
  intro name
  rw [lastEntry_append, Option.map_or, ← h name, ← lastTarget?_map]
  exact get?_publish r _ name

theorem Record.Carries.made {keyName : Nat → String} {repo : String} {made : Nat}
    {keys keys' : List LocalKey} {r : Record}
    (hmade : madeKeys keyName repo firstRoles made .empty keys = (r, keys')) :
    r.bump.Carries [] := by
  obtain rfl := (congrArg Prod.fst hmade).symm
  exact fun _ => rfl

/-- The first version of a new record. -/
theorem version_made {keyName : Nat → String} {repo : String} {made : Nat}
    {keys keys' : List LocalKey} {r : Record}
    (hmade : madeKeys keyName repo firstRoles made .empty keys = (r, keys')) :
    r.bump.version = 1 := by
  obtain rfl := (congrArg Prod.fst hmade).symm
  rfl

theorem Record.Carries.rotated {r : Record} {released : List (String × ByteArray)}
    (h : r.Carries released) (role id : String) : (r.rotated role id).Carries released := by
  rw [Record.Carries, r.targets_rotated]
  exact h

/-- The file of a record, which is not there before anything is published. -/
inductive Shelved (data : Option ByteArray) (released : List (String × ByteArray)) (versions : Nat) :
    Prop where
  | absent : data = none → released = [] → Shelved data released versions
  | present {r : Record} :
      data = some r.printed → r.version ≤ versions → r.Carries released →
      Shelved data released versions

/-- The files of the server and of the clients agree with what has been told. -/
structure Stock.Stored (k : Stock) (shelf : Location) (versions : Nat) (f : Tree.Contents) : Prop where
  record : ∀ repo, Shelved (f (recordPlace shelf repo)) (k.released (recordName repo)) versions
  staged : ∀ home repo, Apart shelf home →
    f (stagedPlace home repo) = stagedFile ((k.waiting (stagedPlace home repo)).map additionOf)

section Storing

variable {k : Stock} {shelf home place : Location} {versions : Nat} {f f' : Tree.Contents}
  {repo : String} {r : Record} {p : Page} {keyName : Nat → String} {made' : Nat}

theorem Shelved.mono {data : Option ByteArray} {released : List (String × ByteArray)} {versions' : Nat}
    (h : Shelved data released versions) (hle : versions ≤ versions') :
    Shelved data released versions' := by
  cases h with
  | absent hnone hnil => exact .absent hnone hnil
  | present hdata hversion hcarries => exact .present hdata (Nat.le_trans hversion hle) hcarries

theorem Stock.Stored.mono (h : k.Stored shelf versions f) {versions' : Nat}
    (hle : versions ≤ versions') : k.Stored shelf versions' f :=
  ⟨fun repo => (h.record repo).mono hle, h.staged⟩

/-- A file that is neither a record nor staged additions. -/
theorem Stock.Stored.put (h : k.Stored shelf versions f)
    (hrecord : ∀ repo, recordPlace shelf repo ≠ place)
    (hstaged : ∀ home repo, stagedPlace home repo ≠ place) (data : Option ByteArray) :
    k.Stored shelf versions (f.put place data) := by
  refine ⟨fun repo => ?_, fun home repo hhome => ?_⟩
  · rw [Tree.Contents.put_of_ne (hrecord repo)]
    exact h.record repo
  · rw [Tree.Contents.put_of_ne (hstaged home repo)]
    exact h.staged home repo hhome

theorem Stock.Stored.putKeys (h : k.Stored shelf versions f) (hapart : Apart shelf home)
    (data : Option ByteArray) : k.Stored shelf versions (f.put (keysPlace home) data) :=
  h.put (fun repo => hapart.ne_keysPlace (prefix_recordPlace shelf repo))
    (fun home' repo => stagedPlace_ne_keysPlace home' home repo) data

theorem Stock.Stored.putRoot (h : k.Stored shelf versions f) (hapart : Apart shelf home)
    (repo : String) (data : Option ByteArray) :
    k.Stored shelf versions (f.put (rootPlace home repo) data) :=
  h.put (fun repo' => hapart.ne_rootPlace (prefix_recordPlace shelf repo') repo)
    (fun home' repo' => stagedPlace_ne_rootPlace home' home repo' repo) data

/-- A record is the file of every repository whose record has that name. -/
theorem Stock.Stored.putRecord (h : k.Stored shelf versions f) (repo : String)
    {released : List (String × ByteArray)} (hcarries : r.Carries released)
    (hversion : r.version ≤ versions) :
    (k.release (recordName repo) released).Stored shelf versions
      (f.put (recordPlace shelf repo) (some r.printed)) := by
  refine ⟨fun repo' => ?_, fun home repo' hhome => ?_⟩
  · by_cases hname : recordName repo' = recordName repo
    · have hplace : recordPlace shelf repo' = recordPlace shelf repo := by
        rw [recordPlace, hname, recordPlace]
      rw [hplace, Tree.Contents.put_self, hname, Stock.release_released, Function.update_self]
      exact .present rfl hversion hcarries
    · rw [Tree.Contents.put_of_ne fun he => hname (recordPlace_inj he), Stock.release_released,
        Function.update_of_ne hname]
      exact h.record repo'
  · rw [Tree.Contents.put_of_ne
      (hhome.ne_stagedPlace (prefix_recordPlace shelf repo) repo').symm]
    exact h.staged home repo' hhome

/-- A record with the same contents as before. -/
theorem Stock.Stored.rewriteRecord (h : k.Stored shelf versions f) (repo : String)
    (hcarries : r.Carries (k.released (recordName repo))) (hversion : r.version ≤ versions) :
    k.Stored shelf versions (f.put (recordPlace shelf repo) (some r.printed)) := by
  have hstored := h.putRecord repo hcarries hversion
  rwa [k.release_self] at hstored

/-- Staged additions, wherever else the same place is named. -/
theorem Stock.Stored.putStaged (h : k.Stored shelf versions f) (hapart : Apart shelf home)
    (repo : String) (entries : List (String × ByteArray)) :
    (k.wait (stagedPlace home repo) entries).Stored shelf versions
      (f.put (stagedPlace home repo) (stagedFile (entries.map additionOf))) := by
  refine ⟨fun repo' => ?_, fun home' repo' hhome => ?_⟩
  · rw [Tree.Contents.put_of_ne (hapart.ne_stagedPlace (prefix_recordPlace shelf repo') repo)]
    exact h.record repo'
  · by_cases hplace : stagedPlace home' repo' = stagedPlace home repo
    · rw [hplace, Tree.Contents.put_self, Stock.wait_waiting, Function.update_self]
    · rw [Tree.Contents.put_of_ne hplace, Stock.wait_waiting, Function.update_of_ne hplace]
      exact h.staged home' repo' hhome

/-- A record that is read is one that was written. -/
theorem Stock.Stored.tells (h : k.Stored shelf versions f)
    (htells : TellsRecord (f (recordPlace shelf repo)) r) :
    r.version ≤ versions ∧ r.Carries (k.released (recordName repo)) := by
  cases h.record repo with
  | absent hnone =>
    rw [hnone] at htells
    exact (tellsRecord_none htells).elim
  | present hdata hversion hcarries =>
    rw [hdata] at htells
    obtain rfl := tellsRecord_printed htells
    exact ⟨hversion, hcarries⟩

theorem Stock.Stored.tellsStaged (h : k.Stored shelf versions f) (hapart : Apart shelf home)
    {staged : List Staged} (htells : TellsStaged (f (stagedPlace home repo)) staged) :
    staged = (k.waiting (stagedPlace home repo)).map additionOf := by
  rw [h.staged home repo hapart] at htells
  exact tellsStaged_stagedFile htells

/-- Nothing has been released in a repository without a record. -/
theorem Stock.Stored.released_eq_nil (h : k.Stored shelf versions f)
    (hnone : f (recordPlace shelf repo) = none) : k.released (recordName repo) = [] := by
  cases h.record repo with
  | absent _ hnil => exact hnil
  | present hdata =>
    rw [hnone] at hdata
    cases hdata

/-- One request more: at most one version more. -/
theorem Stock.Stored.step (h : k.Stored shelf versions p.before.disk.content) (hdone : p.done = true)
    (hapart : Apart shelf p.home)
    (hperforms : Performs keyName shelf p.home p.files p.before.disk.content p.before.made p.errand
      f' made') : (k.after p).Stored shelf (versions + 1) f' := by
  have hmono := h.mono (Nat.le_succ versions)
  generalize herrand : p.errand = errand at hperforms
  cases hperforms with
  | @init repo r keys keys' hnone hmade =>
    rw [k.after_other (by simp [herrand]) (by simp [herrand])]
    have hcarries : r.bump.Carries (k.released (recordName repo)) := by
      rw [h.released_eq_nil hnone]
      exact .made hmade
    have hrecord := hmono.rewriteRecord repo hcarries (by
      rw [version_made hmade]
      exact Nat.le_add_left 1 versions)
    exact (hrecord.putKeys hapart _).putRoot hapart repo _
  | @add repo name file data staged hdata htells =>
    obtain rfl := h.tellsStaged hapart htells
    have hstaged := hmono.putStaged hapart repo (k.waiting (stagedPlace p.home repo) ++ [(name, data)])
    rw [List.map_append, stagedFile, if_neg (by simp)] at hstaged
    rw [k.after_added (added?_add hdone herrand hdata)]
    exact hstaged
  | @publish repo r staged htells hlist hne =>
    obtain rfl := h.tellsStaged hapart hlist
    obtain ⟨hversion, hcarries⟩ := h.tells htells
    rw [k.after_published (published?_publish hdone herrand)]
    have hrecord := hmono.putRecord repo (hcarries.publish (k.waiting (stagedPlace p.home repo)))
      (Nat.succ_le_succ hversion)
    exact (hrecord.putStaged hapart repo []).putRoot hapart repo _
  | @publishNothing repo r htells hlist =>
    have hnil := List.map_eq_nil_iff.1 (h.tellsStaged hapart hlist).symm
    rw [k.after_published (published?_publish hdone herrand), Stock.publish_nothing hnil]
    exact hmono.putRoot hapart repo _
  | @list repo r htells =>
    rw [k.after_other (by simp [herrand]) (by simp [herrand])]
    exact hmono.putRoot hapart repo _
  | verify | keys | other =>
    rw [k.after_other (by simp [herrand]) (by simp [herrand])]
    exact hmono
  | @rotate repo role r keys htells =>
    rw [k.after_other (by simp [herrand]) (by simp [herrand])]
    obtain ⟨hversion, hcarries⟩ := h.tells htells
    have hrecord := hmono.rewriteRecord repo (hcarries.rotated role (keyName p.before.made)) (by
      rw [r.version_rotated]
      exact Nat.succ_le_succ hversion)
    exact (hrecord.putKeys hapart _).putRoot hapart repo _

end Storing

/-! ## Histories -/

/-- A server without any file, and clients that have staged nothing. -/
structure Store.Bare (s : Store) (shelf : Location) : Prop where
  regular : s.disk.Regular
  empty : ∀ place, shelf <+: place → s.disk.content place = none
  staged : ∀ home repo, Apart shelf home → s.disk.content (stagedPlace home repo) = none

/-- Pages that need no numbers of more than 64 bits. -/
structure Measured (pages : List Page) : Prop where
  count : pages.length ≤ maxWord
  sizes : ∀ p ∈ pages, ∀ place name data, p.added? = some (place, name, data) → data.size ≤ maxWord

section Histories

variable {keyName : Nat → String} {shelf : Location} {s t : Store} {pages : List Page}
  {name record : String} {place : Location} {data : ByteArray} {r : Record}

theorem Store.Bare.stored (hs : s.Bare shelf) : Stock.empty.Stored shelf 0 s.disk.content where
  record repo := .absent (hs.empty _ (prefix_recordPlace shelf repo)) rfl
  staged home repo hhome := hs.staged home repo hhome

theorem Chronicle.stored (h : Chronicle keyName shelf s pages t) (hs : s.Bare shelf) :
    (stockOf pages).Stored shelf pages.length t.disk.content := by
  refine (h.induct (P := fun pages t => (stockOf pages).Stored shelf pages.length t.disk.content)
    hs.regular hs.stored ?_ ?_).2
  · intro pages p hstored hidle
    rw [stockOf_snoc, Stock.after_idle _ hidle, List.length_append]
    exact hstored.mono (Nat.le_add_right _ _)
  · intro pages p u hstored hdone hapart hperforms
    rw [stockOf_snoc, List.length_append]
    exact hstored.step hdone hapart hperforms

/-! ### Sizes -/

/-- What waits has been added. -/
theorem Waits.added (h : Waits place name data pages) :
    ∃ p ∈ pages, p.added? = some (place, name, data) := by
  induction h with
  | add hadded => exact ⟨_, by simp, hadded⟩
  | stay _ _ _ ih =>
    obtain ⟨p, hp, hadded⟩ := ih
    exact ⟨p, List.mem_append_left _ hp, hadded⟩

/-- What is the latest has been added. -/
theorem Latest.added (h : Latest record name data pages) :
    ∃ p ∈ pages, ∃ place, p.added? = some (place, name, data) := by
  have hmore : ∀ {pages : List Page} {q : Page},
      (∃ p ∈ pages, ∃ place, p.added? = some (place, name, data)) →
        ∃ p ∈ pages ++ [q], ∃ place, p.added? = some (place, name, data) :=
    fun ⟨p, hp, hadded⟩ => ⟨p, List.mem_append_left _ hp, hadded⟩
  induction h with
  | publish hwaits _ =>
    obtain ⟨p, hp, hadded⟩ := hwaits.added
    exact hmore ⟨p, hp, _, hadded⟩
  | stay _ _ ih => exact hmore ih

/-- A record that carries such contents can be read. -/
theorem Measured.bounded (h : Measured pages) (hversion : r.version ≤ pages.length)
    (hcarries : r.Carries ((stockOf pages).released record)) : r.Bounded := by
  refine ⟨Nat.le_trans hversion h.count, fun e he => ?_⟩
  have hget := hcarries e.1
  rw [Dict.mem_toList.1 (show (e.1, e.2) ∈ r.targets.toList from he)] at hget
  obtain ⟨data, hlast, hdata⟩ := Option.map_eq_some_iff.1 hget.symm
  obtain ⟨p, hp, place, hadded⟩ := (latest_iff.2 hlast).added
  rw [← hdata]
  exact h.sizes p hp place e.1 data hadded

end Histories

/-! ## Verifications -/

/-- A request to verify a content under a name, by whichever client of the server: the content is
that of the file it names. -/
structure Verifies (shelf : Location) (t : Tree) (repo name : String) (data : ByteArray)
    (request : Request) : Prop where
  asks : ∃ trustDir file,
    (Flags.read request.args).1.trustDir = some trustDir ∧
    (Flags.read request.args).2 = ["verify", repo, name, "-i", file, "-q"] ∧
    t.readBytes request.here file = .ok data
  serves : ∃ server, Reads (openServer request.here (Flags.read request.args).1) t (.ok server) ∧
    Path.place request.here server = shelf ∧ t.Steady request.here server ∧
    Tree.refuse? (recordPath server repo) = none

section Verifications

variable {keyName : Nat → String} {shelf here : Location} {server repo name file : String} {u : Tree}
  {data : ByteArray} {request : Request} {made : Nat} {r : Record} {o : Office}

theorem Step.Reads.unique {α : Type} {x : Step α} {result result' : Except Trouble α}
    (h : Reads x u result) (h' : Reads x u result') : result = result' :=
  congrArg Prod.fst ((h ⟨u, [], .empty, 0⟩ rfl).symm.trans (h' _ rfl))

theorem reads_readBytes (hdata : u.readBytes here file = .ok data) :
    Reads (Notary.readBytes here file) u (.ok data) := by
  rintro d rfl
  simp only [Notary.readBytes, look, Step.run, hdata]

/-- A record that is in its place is loaded, by every path that is not refused. -/
theorem reads_loadRecord_told (hu : u.Regular) (hserver : u.Steady here server)
    (hrefuse : Tree.refuse? (recordPath server repo) = none)
    (htold : TellsRecord (u.content (Path.place here (recordPath server repo))) r) :
    Reads (loadRecord here server repo) u (.ok r) := by
  obtain ⟨bytes, text, hbytes, hutf, hread⟩ := htold
  have htext : u.readText here (recordPath server repo) = .ok text :=
    Tree.readText_of_content hu hserver (proper_recordName repo) hrefuse hbytes hutf
  rintro d rfl
  rw [loadRecord, run_bind, run_present, leads_of_readText htext]
  exact run_readFile htext hread

/-- What a record says of a content. -/
def judged (r : Record) (repo name : String) (data : ByteArray) : Except Trouble Unit :=
  match r.targets.get? name with
  | none => .error (.targetMissing name repo)
  | some target => if Target.ofContent data = target then .ok () else .error (.otherContent name)

theorem judged_eq_ok :
    judged r repo name data = .ok () ↔ r.targets.get? name = some (.ofContent data) := by
  rw [judged]
  cases r.targets.get? name with
  | none => simp
  | some target => by_cases h : target = .ofContent data <;> simp [h, eq_comm]

/-- What a verification comes to, once the record is loaded. -/
theorem reads_verify (hload : Reads (loadRecord o.here server repo) u (.ok r))
    (hdata : u.readBytes o.here file = .ok data) :
    Reads (verify o server repo name file) u (judged r repo name data) := by
  refine hload.bind ?_
  rw [judged]
  cases r.targets.get? name with
  | none => exact reads_throw _ u
  | some target =>
    refine (reads_readBytes hdata).bind ?_
    dsimp only
    split
    · exact reads_pure () u
    · exact reads_throw _ u

theorem verify_ok_iff (hu : u.Regular) (hplace : Path.place o.here server = shelf)
    (hserver : u.Steady o.here server) (hrefuse : Tree.refuse? (recordPath server repo) = none)
    (hdata : u.readBytes o.here file = .ok data) :
    Reads (verify o server repo name file) u (.ok ()) ↔
      ∃ r, TellsRecord (u.content (recordPlace shelf repo)) r ∧
        r.targets.get? name = some (.ofContent data) := by
  have hrecord : Path.place o.here (recordPath server repo) = recordPlace shelf repo := by
    rw [recordPath, recordPlace, ← hplace]
    exact Path.place_join_name (proper_recordName repo) o.here server
  constructor
  · intro h
    obtain ⟨_ | r, hload⟩ := reads_loadRecord o.here server repo u
    · cases h.unique hload.bind_error
    · have htold := tellsRecord_of_loadRecord (hload ⟨u, [], .empty, 0⟩ rfl)
      rw [hrecord] at htold
      exact ⟨r, htold, judged_eq_ok.1 ((reads_verify hload hdata).unique h)⟩
  · rintro ⟨r, htold, htarget⟩
    rw [← hrecord] at htold
    rw [← judged_eq_ok.2 htarget]
    exact reads_verify (reads_loadRecord_told hu hserver hrefuse htold) hdata

/-- The answer to such a request. -/
theorem answer_verify {args : List String} {f : Flags} {trustDir : String}
    (hread : Flags.read args = (f, ["verify", repo, name, "-i", file, "-q"]))
    (hdir : f.trustDir = some trustDir) :
    answer o args = (do
      let server ← openServer o.here f
      verify o server repo name file
      pure 0) := by
  obtain ⟨url, embedded, config, dir⟩ := f
  obtain rfl : dir = some trustDir := hdir
  rw [answer, hread]
  rfl

theorem run_verify (hu : u.Regular) (hv : Verifies shelf u repo name data request) :
    (run keyName request made u).1.exit = some 0 ↔
      ∃ r, TellsRecord (u.content (recordPlace shelf repo)) r ∧
        r.targets.get? name = some (.ofContent data) := by
  obtain ⟨trustDir, file, hdir, hwords, hdata⟩ := hv.asks
  obtain ⟨server, hopen, hplace, hserver, hrefuse⟩ := hv.serves
  rw [← verify_ok_iff (o := officeOf keyName request) hu hplace hserver hrefuse hdata]
  have hanswer := answer_verify (o := officeOf keyName request)
    (show Flags.read request.args = ((Flags.read request.args).1, _) from Prod.ext rfl hwords) hdir
  obtain ⟨result, hverify⟩ : ∃ result,
      Reads (verify (officeOf keyName request) server repo name file) u result := by
    obtain ⟨_ | r, hload⟩ := reads_loadRecord request.here server repo u
    · exact ⟨_, hload.bind_error⟩
    · exact ⟨_, reads_verify (o := officeOf keyName request) hload hdata⟩
  cases result with
  | error trouble =>
    have hreads := hopen.bind (f := fun server => do
      verify (officeOf keyName request) server repo name file
      pure 0) hverify.bind_error
    rw [run_of_error (d := deskOf request made u) (hanswer ▸ hreads _ rfl) rfl]
    exact iff_of_false (by simp [trouble.exit_ne_zero]) fun hok => by cases hverify.unique hok
  | ok _ =>
    have hreads := hopen.bind (f := fun server => do
      verify (officeOf keyName request) server repo name file
      pure 0) (hverify.bind (reads_pure 0 u))
    rw [run_of_ok (d := deskOf request made u) (hanswer ▸ hreads _ rfl)]
    exact iff_of_true rfl hverify

end Verifications

/-! ## Verifications after a history -/

section Verified

variable {keyName : Nat → String} {shelf : Location} {s t : Store} {pages : List Page}
  {repo name : String} {data : ByteArray} {request : Request}

theorem Chronicle.verify_iff (h : Chronicle keyName shelf s pages t) (hs : s.Bare shelf)
    (hm : Measured pages) (hv : Verifies shelf t.disk repo name data request) :
    (run keyName request t.made t.disk).1.exit = some 0 ↔
      ∃ old, Latest (recordName repo) name old pages ∧
        Target.ofContent old = Target.ofContent data := by
  have hstored := h.stored hs
  rw [run_verify (h.regular hs.regular) hv]
  simp only [latest_iff]
  constructor
  · rintro ⟨r, htells, htarget⟩
    rw [(hstored.tells htells).2 name] at htarget
    exact Option.map_eq_some_iff.1 htarget
  · rintro ⟨old, hlast, hsame⟩
    cases hstored.record repo with
    | absent _ hnil =>
      rw [hnil] at hlast
      cases hlast
    | @present r hdata hversion hcarries =>
      refine ⟨r, ?_, ?_⟩
      · rw [hdata]
        exact ⟨_, _, rfl, Text.fromUTF8?_toUTF8 _, readAs_record (hm.bounded hversion hcarries)⟩
      · rw [hcarries name, hlast, Option.map_some, hsame]

theorem Latest.unique {record : String} {other : ByteArray} (h : Latest record name data pages)
    (hother : Latest record name other pages) : data = other :=
  Option.some.inj ((latest_iff.1 h).symm.trans (latest_iff.1 hother))

/-- A verification succeeds, whichever client asks for it, exactly if a content is published under
the name, and the latest one has the length and the digest of the given content. So it succeeds for
the latest content itself, and fails for every content of another length, and for every content that
differs from it in one byte. -/
theorem Chronicle.verified (hs : s.Bare shelf) (h : Chronicle keyName shelf s pages t)
    (hm : Measured pages) (hv : Verifies shelf t.disk repo name data request) :
    ((run keyName request t.made t.disk).1.exit = some 0 ↔
      ∃ old, Latest (recordName repo) name old pages ∧
        old.size = data.size ∧ digest old = digest data) ∧
    ∀ old, Latest (recordName repo) name old pages →
      (data = old → (run keyName request t.made t.disk).1.exit = some 0) ∧
      (data.size ≠ old.size → (run keyName request t.made t.disk).1.exit ≠ some 0) ∧
      (OneByteApart data old → (run keyName request t.made t.disk).1.exit ≠ some 0) := by
  have hiff := h.verify_iff hs hm hv
  simp only [ofContent_eq_iff] at hiff
  refine ⟨hiff, fun old hlatest => ⟨?_, fun hsize hok => ?_, fun hbyte hok => ?_⟩⟩
  · rintro rfl
    exact hiff.2 ⟨data, hlatest, rfl, rfl⟩
  · obtain ⟨other, hother, hsame, -⟩ := hiff.1 hok
    obtain rfl := hlatest.unique hother
    exact hsize hsame.symm
  · obtain ⟨other, hother, -, hdigest⟩ := hiff.1 hok
    obtain rfl := hlatest.unique hother
    exact hbyte.digest_ne hdigest.symm

end Verified

/-! ### Samples -/

/-- The founder of `a/b`, on the tree of two clients. -/
def slashVisit : Visit := ⟨slashPremises "a/b", "/home", ["home"], pairTree⟩

def slashPage (words : List String) (t : Store) : Page := ⟨requestFrom "/home" words, ["home"], t, true⟩

theorem sound_slashVisit : slashVisit.Sound := sound_slashFounder grounded_pairTree

/-- The founder's history goes on with a command that goes well. -/
theorem Chronicle.goes_slash {s t : Store} {pages : List Page} {v w : View} {words : List String}
    (h : Chronicle Main.keyName ["srv"] s pages t)
    (hwords : ∀ w ∈ words.head?, w ∉ ["-s", "-c", "-d", "-D", "debug"])
    (hrepo : (Errand.ofWords words).repo? = some "a/b")
    (hgoes : slashVisit.Goes (command demoPremises.office "/srv" "/home" words) v () w)
    (hfits : slashVisit.Fits (deskOf (requestFrom "/home" words) t.made t.disk) v) :
    ∃ u, Chronicle Main.keyName ["srv"] s (pages ++ [slashPage words t]) u ∧ u.made = w.made ∧
      ∀ next, slashVisit.Fits (deskOf next u.made u.disk)
        { w with input := some next.stdin.data.toList, output := "" } := by
  have hread : Flags.read (requestFrom "/home" words).args = (demoRunner.flags "/home", words) :=
    read_request (i := .new "/home" words) rfl hwords
  have hdirected : Directed t.disk (requestFrom "/home" words) ["srv"] ["home"] :=
    directed_demo hread rfl (by decide) (by decide)
  refine h.goes sound_slashVisit rfl rfl (serves_demo rfl) rfl hwords hdirected
    ⟨by decide, by decide⟩ (fun repo hmem => ?_) hgoes hfits
  rw [errandOf, hread, hrepo] at hmem
  obtain rfl := Option.some.inj hmem
  exact ⟨by decide, by decide⟩

/-- The note stays where it is. -/
theorem locate_note : demoGround.locate [] "/note" = .ok ["note"] := rfl

theorem note_ne_recordPlace : ["note"] ≠ slashVisit.premises.recordPlace := by decide +kernel

theorem note_not_home : ¬slashVisit.home <+: ["note"] := by decide

theorem readBytes_note {d : Desk} {v : View} (h : slashVisit.Fits d v) :
    d.disk.readBytes [] "/note" = .ok "note".toUTF8 := by
  have hlocate := Tree.locate_mono (h.grounded sound_slashVisit).directories locate_note
  have hnode : d.disk.find? ["note"] = some (.file "note".toUTF8 false) :=
    h.elsewhere ["note"] note_ne_recordPlace note_not_home
  simp only [Tree.readBytes, Tree.look, hlocate, hnode]

/-- The founder of `a/b` adds a note and publishes it. -/
def slashPages (t u : Store) : List Page :=
  [slashPage ["init", "a/b"] ⟨0, pairTree⟩, slashPage ["add", "a/b", "note", "/note"] t,
    slashPage ["publish", "a/b"] u]

theorem goes_slashAddition (input : Option (List UInt8)) : ∃ output, slashVisit.Goes
    (command demoPremises.office "/srv" "/home" ["add", "a/b", "note", "/note"])
    ⟨some slashRecord, ⟨slashKeys, [], some slashRecord⟩, 4, input, ""⟩ ()
    ⟨some slashRecord, ⟨slashKeys, demoStaged, some slashRecord⟩, 4, input, output⟩ := by
  have hread : ∀ v, slashVisit.Goes (readBytes [] "/note") v "note".toUTF8 v := fun _ =>
    goes_readBytes sound_slashVisit locate_note note_ne_recordPlace note_not_home rfl
  exact ⟨_, goes_add sound_slashVisit (hread _) (by decide) nofun⟩

theorem goes_slashPublication (input : Option (List UInt8)) : ∃ w, slashVisit.Goes
    (command demoPremises.office "/srv" "/home" ["publish", "a/b"])
    ⟨some slashRecord, ⟨slashKeys, demoStaged, some slashRecord⟩, 4, input, ""⟩ () w := by
  have hc := sound_slashVisit
  have hbounded : (slashRecord.publish demoStaged).bump.Bounded := ⟨by decide, by decide +kernel⟩
  exact ⟨_, (goes_login hc nofun).bind (goes_publish hc rfl (List.cons_ne_nil _ _) hbounded)⟩

theorem slash_history : ∃ t u v : Store,
    Chronicle Main.keyName ["srv"] ⟨0, pairTree⟩ (slashPages t u) v ∧
      t.disk.readBytes [] "/note" = .ok "note".toUTF8 ∧
      v.disk.readBytes [] "/note" = .ok "note".toUTF8 := by
  have hfits : slashVisit.Fits (deskOf (requestFrom "/home" ["init", "a/b"]) 0 pairTree)
      ⟨none, .empty, 0, none, ""⟩ :=
    Visit.fits_start (by rfl) (housed_pairTree (.inl rfl)) _
  obtain ⟨_, hfounds⟩ := goes_slashFounding grounded_pairTree
  obtain ⟨t, hfounding, -, hfounded⟩ := Chronicle.nil.goes_slash (s := ⟨0, pairTree⟩) (by decide)
    (by decide) hfounds hfits
  obtain ⟨_, hadds⟩ := goes_slashAddition _
  obtain ⟨u, hadding, -, hadded⟩ := hfounding.goes_slash (by decide) (by decide) hadds (hfounded _)
  obtain ⟨_, hpublishes⟩ := goes_slashPublication _
  obtain ⟨v, hpublishing, -, hpublished⟩ := hadding.goes_slash (by decide) (by decide) hpublishes
    (hadded _)
  exact ⟨t, u, v, hpublishing, readBytes_note (hfounded (requestFrom "" [])),
    readBytes_note (hpublished (requestFrom "" []))⟩

theorem bare_pairTree : Store.Bare ⟨0, pairTree⟩ ["srv"] where
  regular := regular_pairTree
  empty := by
    rintro _ ⟨rest, rfl⟩
    cases rest with
    | nil => rfl
    | cons name rest => exact content_pairTree (by simp)
  staged home repo _ := content_pairTree (by simp [stagedPlace]; omega)

theorem added?_slashAddition {t : Store} (h : t.disk.readBytes [] "/note" = .ok "note".toUTF8) :
    (slashPage ["add", "a/b", "note", "/note"] t).added? =
      some (stagedPlace ["home"] "a/b", "note", "note".toUTF8) := added?_add rfl rfl h

theorem measured_slashPages {t u : Store} (h : t.disk.readBytes [] "/note" = .ok "note".toUTF8) :
    Measured (slashPages t u) where
  count := by simp [slashPages, maxWord]
  sizes := by
    intro p hp place name data hadded
    simp only [slashPages, List.mem_cons, List.not_mem_nil, or_false] at hp
    rcases hp with rfl | rfl | rfl
    · cases hadded
    · rw [added?_slashAddition h] at hadded
      cases hadded
      decide
    · cases hadded

theorem latest_slashPages {t u : Store} (h : t.disk.readBytes [] "/note" = .ok "note".toUTF8) :
    Latest (recordName "a/b") "note" "note".toUTF8 (slashPages t u) := by
  have hwaits : Waits (stagedPlace ["home"] "a/b") "note" "note".toUTF8
      ([slashPage ["init", "a/b"] ⟨0, pairTree⟩] ++ [slashPage ["add", "a/b", "note", "/note"] t]) :=
    .add (added?_slashAddition h)
  have hpublished : (slashPage ["publish", "a/b"] u).published? =
      some (stagedPlace ["home"] "a/b", recordName "a/b") := published?_publish rfl rfl
  exact .publish hwaits hpublished

/-- The other client verifies the note, in whichever of the two repositories. -/
def slashVerification (repo : String) : Request :=
  requestFrom "/other" ["verify", repo, "note", "-i", "/note", "-q"]

theorem verifies_slash {v : Store} {repo : String} (hrepo : repo = "a/b" ∨ repo = "a_b")
    (h : v.disk.readBytes [] "/note" = .ok "note".toUTF8) :
    Verifies ["srv"] v.disk repo "note" "note".toUTF8 (slashVerification repo) := by
  have hread : Flags.read (slashVerification repo).args =
      (demoRunner.flags "/other", ["verify", repo, "note", "-i", "/note", "-q"]) :=
    read_request (i := .new "/other" _) rfl (by
      rintro _ ⟨⟩
      decide)
  refine ⟨⟨"/other", "/note", ?_, ?_, h⟩, "/srv", ?_, rfl, ?_, ?_⟩
  · rw [hread]
    rfl
  · rw [hread]
  · rw [hread]
    exact reads_pure "/srv" v.disk
  · exact ⟨[], Path.parts "/srv", _, rfl, rfl, by decide⟩
  · exact (sound_slashPremises hrepo).record_path

/-- The other client verifies what the founder has published. -/
theorem verified_note : ∃ t u v : Store,
    Chronicle Main.keyName ["srv"] ⟨0, pairTree⟩ (slashPages t u) v ∧
      (run Main.keyName (slashVerification "a/b") v.made v.disk).1.exit = some 0 := by
  obtain ⟨t, u, v, h, ht, hv⟩ := slash_history
  have hverified := Chronicle.verified bare_pairTree h (measured_slashPages ht)
    (verifies_slash (.inl rfl) hv)
  exact ⟨t, u, v, h, (hverified.2 _ (latest_slashPages ht)).1 rfl⟩

/-- The same content is verified in `a_b`, though no request has been about that repository. -/
theorem slash_verified_elsewhere : ∃ t u v : Store,
    Chronicle Main.keyName ["srv"] ⟨0, pairTree⟩ (slashPages t u) v ∧
      (∀ p ∈ slashPages t u, p.errand.repo? = some "a/b") ∧
      (run Main.keyName (slashVerification "a_b") v.made v.disk).1.exit = some 0 := by
  obtain ⟨t, u, v, h, ht, hv⟩ := slash_history
  have hrecord : recordName "a_b" = recordName "a/b" := by decide +kernel
  have hiff := h.verify_iff bare_pairTree (measured_slashPages ht) (verifies_slash (.inr rfl) hv)
  rw [hrecord] at hiff
  refine ⟨t, u, v, h, ?_, hiff.2 ⟨_, latest_slashPages ht, rfl⟩⟩
  simp only [slashPages, List.forall_mem_cons]
  exact ⟨rfl, rfl, rfl, List.forall_mem_nil _⟩

end Notary
end TrustTrial
