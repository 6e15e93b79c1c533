import TrustTrial.Notary.Store
import TrustTrial.Proofs.Filing
import TrustTrial.Proofs.Folders

/-!
# TrustTrial.Proofs.Homes

What the notary keeps for a repository, on a tree: the record on the server, and the three files
in the trust directory of a client. `Recorded` and `Housed` say what they hold; writing or removing
one of the files changes what it holds and nothing else.
-/

namespace TrustTrial
namespace Notary

open Disk Text

/-! ## Spots -/

/-- A file in folders below a directory. -/
structure Spot where
  folders : List String
  name : String

namespace Spot

def names (p : Spot) : List String := p.folders ++ [p.name]

def place (p : Spot) (home : Location) : Location := home ++ p.folders ++ [p.name]

theorem place_eq (p : Spot) (home : Location) : p.place home = home ++ p.names :=
  List.append_assoc _ _ _

def keys : Spot := ⟨["private"], "keys.json"⟩

def staged (repo : String) : Spot := ⟨"tuf" :: Path.parts repo, "changelist.json"⟩

def root (repo : String) : Spot := ⟨"tuf" :: (Path.parts repo ++ ["metadata"]), "root.json"⟩

end Spot

/-- The files in a trust directory. -/
def spots (repo : String) : List Spot := [.keys, .staged repo, .root repo]

/-- No file is a folder on the way to another one. -/
theorem not_prefix_of_spots {repo : String} {p q : Spot} (hp : p ∈ spots repo)
    (hq : q ∈ spots repo) : ¬p.names <+: q.folders := by
  have hlonger : ∀ {a b : List String}, b.length < a.length → ¬a <+: b := by
    intro a b hlength h
    exact absurd h.length_le (Nat.not_le.2 hlength)
  simp only [spots, List.mem_cons, List.not_mem_nil, or_false] at hp hq
  rcases hp with rfl | rfl | rfl <;> rcases hq with rfl | rfl | rfl
  · exact hlonger (by simp [Spot.names])
  · simp [Spot.names, Spot.keys, Spot.staged]
  · simp [Spot.names, Spot.keys, Spot.root]
  · simp [Spot.names, Spot.keys, Spot.staged]
  · exact hlonger (by simp [Spot.names])
  · simp [Spot.names, Spot.staged, Spot.root]
  · simp [Spot.names, Spot.keys, Spot.root]
  · exact hlonger (by simp [Spot.names, Spot.staged, Spot.root])
  · exact hlonger (by simp [Spot.names])

theorem names_inj {p q : Spot} (h : p.names = q.names) : p = q := by
  obtain ⟨folders, name⟩ := p
  obtain ⟨folders', name'⟩ := q
  simpa [Spot.names] using h

theorem place_inj {p q : Spot} {home : Location} (h : p.place home = q.place home) : p = q := by
  rw [Spot.place_eq, Spot.place_eq, List.append_cancel_left_eq] at h
  exact names_inj h

/-- The ways to all files are clear, and no directory is in place of one. -/
def Tidy (t : Tree) (home : Location) (repo : String) : Prop :=
  ∀ p ∈ spots repo, t.Clear home p.folders ∧ t.find? (p.place home) ≠ some .directory

section Tidy

variable {t t' : Tree} {home : Location} {repo : String} {p q : Spot} {data : ByteArray}

/-- A file is found in another one's place only if it is the same. -/
theorem not_on_way (hp : p ∈ spots repo) (hq : q ∈ spots repo) {front : List String}
    (hfront : front <+: p.folders) : q.place home ≠ home ++ front := by
  rw [Spot.place_eq]
  intro h
  rw [List.append_cancel_left_eq] at h
  exact not_prefix_of_spots hq hp (h ▸ hfront)

theorem Written.elsewhere_of_not_below (h : Tree.Written t home p.folders p.name data t')
    {place : Location} (hplace : ¬home <+: place) : t'.find? place = t.find? place := by
  refine h.elsewhere place ?_ ?_
  · rintro rfl
    exact hplace ((List.prefix_append _ _).trans (List.prefix_append _ _))
  · rintro front - rfl
    exact hplace (List.prefix_append _ _)

theorem Written.other (h : Tree.Written t home p.folders p.name data t') (hp : p ∈ spots repo)
    (hq : q ∈ spots repo) (hne : q ≠ p) : t'.find? (q.place home) = t.find? (q.place home) :=
  h.elsewhere _ (fun he => hne (place_inj he)) fun _ hfront => not_on_way hp hq hfront

theorem Tidy.written (h : Tidy t home repo) (hp : p ∈ spots repo)
    (hw : Tree.Written t home p.folders p.name data t') : Tidy t' home repo := by
  intro q hq
  refine ⟨⟨?_, fun front hfront => ?_⟩, ?_⟩
  · simpa using hw.directory [] List.nil_prefix
  · by_cases hway : front <+: p.folders
    · exact .inl (hw.directory front hway)
    · have hsame : ∀ place, home ++ front <+: place → t'.find? place = t.find? place := by
        intro place hplace
        refine hw.elsewhere place ?_ ?_
        · rintro rfl
          rw [List.append_assoc, List.prefix_append_right_inj, List.prefix_concat_iff] at hplace
          rcases hplace with rfl | hplace
          · exact not_prefix_of_spots hp hq hfront
          · exact hway hplace
        · rintro other hother rfl
          exact hway (((List.prefix_append_right_inj home).1 hplace).trans hother)
      rcases (h q hq).1.free front hfront with hdir | hnone
      · exact .inl ((hsame _ List.prefix_rfl).trans hdir)
      · exact .inr fun place hplace => (hsame place hplace).trans (hnone place hplace)
  · by_cases hqp : q = p
    · obtain ⟨executable, hfile⟩ := hw.file
      rw [hqp, Spot.place, hfile]
      exact nofun
    · rw [Written.other hw hp hq hqp]
      exact (h q hq).2

/-- Taking a file away takes away nothing else. -/
theorem find?_remove_spot (hp : p ∈ spots repo) (hq : q ∈ spots repo) (hne : q ≠ p) :
    (t.remove (p.place home)).find? (q.place home) = t.find? (q.place home) := by
  rw [Tree.find?_remove t (by simp [Spot.place]), if_neg]
  rw [List.isPrefixOf_iff_prefix, Spot.place_eq, Spot.place_eq, List.prefix_append_right_inj,
    Spot.names.eq_def q, List.prefix_concat_iff]
  rintro (he | hbelow)
  · exact hne (names_inj he.symm)
  · exact not_prefix_of_spots hp hq hbelow

theorem find?_remove_of_not_below {place : Location} (hplace : ¬home <+: place) :
    (t.remove (p.place home)).find? place = t.find? place := by
  rw [Tree.find?_remove t (by simp [Spot.place]), if_neg]
  rw [List.isPrefixOf_iff_prefix, Spot.place_eq]
  exact fun h => hplace ((List.prefix_append _ _).trans h)

theorem Tidy.removed (h : Tidy t home repo) (hp : p ∈ spots repo) :
    Tidy (t.remove (p.place home)) home repo := by
  have hfind := Tree.find?_remove t (show p.place home ≠ [] by simp [Spot.place])
  intro q hq
  have hfolder : ∀ front, front <+: q.folders →
      (t.remove (p.place home)).find? (home ++ front) = t.find? (home ++ front) := by
    intro front hfront
    rw [hfind, if_neg]
    rw [List.isPrefixOf_iff_prefix, Spot.place_eq, List.prefix_append_right_inj]
    exact fun hbelow => not_prefix_of_spots hp hq (hbelow.trans hfront)
  refine ⟨⟨?_, fun front hfront => ?_⟩, ?_⟩
  · simpa using (hfolder [] List.nil_prefix).trans (by simpa using (h q hq).1.directory)
  · rcases (h q hq).1.free front hfront with hdir | hnone
    · exact .inl ((hfolder front hfront).trans hdir)
    · refine .inr fun place hplace => ?_
      rw [hfind, hnone place hplace, ite_self]
  · rw [hfind]
    split
    · exact nofun
    · exact (h q hq).2

end Tidy

/-! ## Contents -/

/-- A file holds a JSON value. -/
def Holds (t : Tree) (place : Location) (v : Json.Value) : Prop :=
  ∃ executable, t.find? place = some (.file v.pretty.toUTF8 executable)

/-- A file holds a list; an empty one needs no file. -/
def Lists {α : Type} (toValue : α → Json.Value) (t : Tree) (place : Location) (xs : List α) :
    Prop :=
  t.find? place = none ∧ xs = [] ∨ Holds t place (.list (xs.map toValue))

/-- What a client holds: its keys, its staged additions, and the record that its copy of the root
document was made from, if that is known. -/
structure Home where
  keys : List LocalKey
  staged : List Staged
  root : Option Record

def Home.empty : Home := ⟨[], [], none⟩

/-- What a trust directory holds. -/
structure Housed (t : Tree) (home : Location) (repo : String) (h : Home) : Prop where
  tidy : Tidy t home repo
  keys : Lists LocalKey.toValue t (Spot.keys.place home) h.keys
  staged : Lists Staged.toValue t ((Spot.staged repo).place home) h.staged
  sizes : ∀ s ∈ h.staged, s.target.size ≤ maxWord
  root : ∀ r ∈ h.root,
    r.version ≤ maxWord ∧ Holds t ((Spot.root repo).place home) r.rootDocument

/-- What the server holds for a repository. -/
def Recorded (t : Tree) (place : Location) : Option Record → Prop
  | none => t.find? place = none
  | some r => r.Bounded ∧ Holds t place r.toValue

section Contents

variable {t t' : Tree} {home place : Location} {repo : String} {h : Home}

theorem Holds.congr {v : Json.Value} (hsame : t'.find? place = t.find? place)
    (hv : Holds t place v) : Holds t' place v := by
  obtain ⟨executable, hfile⟩ := hv
  exact ⟨executable, hsame.trans hfile⟩

theorem Lists.congr {α : Type} {toValue : α → Json.Value} {xs : List α}
    (hsame : t'.find? place = t.find? place) (hxs : Lists toValue t place xs) :
    Lists toValue t' place xs := by
  rcases hxs with ⟨hnone, hempty⟩ | hv
  · exact .inl ⟨hsame.trans hnone, hempty⟩
  · exact .inr (hv.congr hsame)

theorem Recorded.congr {record : Option Record} (hsame : t'.find? place = t.find? place)
    (hr : Recorded t place record) : Recorded t' place record := by
  cases record with
  | none => exact hsame.trans hr
  | some r => exact ⟨hr.1, hr.2.congr hsame⟩

/-- A trust directory holds the same as long as nothing at or below it changes. -/
theorem Housed.congr (hsame : ∀ place, home <+: place → t'.find? place = t.find? place)
    (hh : Housed t home repo h) : Housed t' home repo h := by
  have hspot : ∀ p : Spot, t'.find? (p.place home) = t.find? (p.place home) := by
    intro p
    rw [Spot.place_eq]
    exact hsame _ (List.prefix_append _ _)
  refine ⟨fun p hp => ⟨⟨?_, fun front hfront => ?_⟩, ?_⟩, hh.keys.congr (hspot _),
    hh.staged.congr (hspot _), hh.sizes, fun r hr => ?_⟩
  · rw [hsame home List.prefix_rfl]
    exact (hh.tidy p hp).1.directory
  · rcases (hh.tidy p hp).1.free front hfront with hdir | hnone
    · exact .inl ((hsame _ (List.prefix_append _ _)).trans hdir)
    · exact .inr fun place hplace =>
        (hsame place ((List.prefix_append _ _).trans hplace)).trans (hnone place hplace)
  · rw [hspot]
    exact (hh.tidy p hp).2
  · exact ⟨(hh.root r hr).1, (hh.root r hr).2.congr (hspot _)⟩

/-- A directory with nothing in it. -/
theorem Housed.empty (hdir : t.find? home = some .directory)
    (hnone : ∀ place, home <+: place → place ≠ home → t.find? place = none) :
    Housed t home repo .empty := by
  have hspot : ∀ p : Spot, t.find? (p.place home) = none := by
    intro p
    refine hnone _ ?_ (by simp [Spot.place])
    rw [Spot.place_eq]
    exact List.prefix_append _ _
  refine ⟨fun p _ => ⟨⟨hdir, fun front _ => ?_⟩, ?_⟩, .inl ⟨hspot _, rfl⟩, .inl ⟨hspot _, rfl⟩,
    by simp [Home.empty], by simp [Home.empty]⟩
  · cases front with
    | nil => exact .inl (by simpa using hdir)
    | cons folder front =>
      refine .inr fun place hplace => hnone place ((List.prefix_append _ _).trans hplace) ?_
      rintro rfl
      have hlength := hplace.length_le
      simp only [List.length_append, List.length_cons] at hlength
      omega
  · rw [hspot]
    exact nofun

theorem Housed.directory (hh : Housed t home repo h) : t.find? home = some .directory :=
  (hh.tidy .keys (by simp [spots])).1.directory

theorem holds_of_written {p : Spot} {v : Json.Value}
    (hw : Tree.Written t home p.folders p.name v.pretty.toUTF8 t') : Holds t' (p.place home) v :=
  hw.file

theorem Housed.writeKeys (hh : Housed t home repo h) {keys : List LocalKey}
    (hw : Tree.Written t home Spot.keys.folders Spot.keys.name
      (Json.Value.list (keys.map LocalKey.toValue)).pretty.toUTF8 t') :
    Housed t' home repo { h with keys := keys } := by
  have hp : Spot.keys ∈ spots repo := by simp [spots]
  refine ⟨hh.tidy.written hp hw, .inr (holds_of_written hw), ?_, hh.sizes, fun r hr => ?_⟩
  · exact hh.staged.congr (Written.other hw hp (by simp [spots]) (by simp [Spot.keys, Spot.staged]))
  · exact ⟨(hh.root r hr).1, (hh.root r hr).2.congr
      (Written.other hw hp (by simp [spots]) (by simp [Spot.keys, Spot.root]))⟩

theorem Housed.writeStaged (hh : Housed t home repo h) {staged : List Staged}
    (hsizes : ∀ s ∈ staged, s.target.size ≤ maxWord)
    (hw : Tree.Written t home (Spot.staged repo).folders (Spot.staged repo).name
      (Json.Value.list (staged.map Staged.toValue)).pretty.toUTF8 t') :
    Housed t' home repo { h with staged := staged } := by
  have hp : Spot.staged repo ∈ spots repo := by simp [spots]
  refine ⟨hh.tidy.written hp hw, ?_, .inr (holds_of_written hw), hsizes, fun r hr => ?_⟩
  · exact hh.keys.congr (Written.other hw hp (by simp [spots]) (by simp [Spot.keys, Spot.staged]))
  · exact ⟨(hh.root r hr).1, (hh.root r hr).2.congr
      (Written.other hw hp (by simp [spots]) (by simp [Spot.staged, Spot.root]))⟩

theorem Housed.writeRoot (hh : Housed t home repo h) {r : Record} (hversion : r.version ≤ maxWord)
    (hw : Tree.Written t home (Spot.root repo).folders (Spot.root repo).name
      r.rootDocument.pretty.toUTF8 t') :
    Housed t' home repo { h with root := some r } := by
  have hp : Spot.root repo ∈ spots repo := by simp [spots]
  refine ⟨hh.tidy.written hp hw, ?_, ?_, hh.sizes, ?_⟩
  · exact hh.keys.congr (Written.other hw hp (by simp [spots]) (by simp [Spot.keys, Spot.root]))
  · exact hh.staged.congr
      (Written.other hw hp (by simp [spots]) (by simp [Spot.staged, Spot.root]))
  · rintro _ ⟨⟩
    exact ⟨hversion, holds_of_written hw⟩

theorem Housed.removeStaged (hh : Housed t home repo h) :
    Housed (t.remove ((Spot.staged repo).place home)) home repo { h with staged := [] } := by
  have hp : Spot.staged repo ∈ spots repo := by simp [spots]
  refine ⟨hh.tidy.removed hp, ?_, .inl ⟨?_, rfl⟩, by simp, fun r hr => ?_⟩
  · exact hh.keys.congr (find?_remove_spot hp (by simp [spots]) (by simp [Spot.keys, Spot.staged]))
  · rw [Tree.find?_remove t (by simp [Spot.place])]
    simp
  · exact ⟨(hh.root r hr).1, (hh.root r hr).2.congr
      (find?_remove_spot hp (by simp [spots]) (by simp [Spot.staged, Spot.root]))⟩

end Contents

end Notary
end TrustTrial
