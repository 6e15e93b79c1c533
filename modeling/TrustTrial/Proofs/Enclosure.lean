import TrustTrial.Program
import TrustTrial.Proofs.Recognition

/-!
# TrustTrial.Proofs.Enclosure

Where the root document of a client can be, whatever the repository is called. The name of a
repository is joined to the trust directory as it is written. So an absolute name stands for itself,
in every trust directory, and `..` goes up, if need be out of the directory.

The name alone decides: `cache?` follows its parts below a trust directory. If it comes out beneath
`tuf`, so does every path, and only then (`path_enclosed_iff`). If it stays in the trust directory,
two clients never share a file, and only then (`path_apart_iff`); for all other names the clients in
neighbouring directories do share one (`path_shared`).
-/

namespace TrustTrial
namespace Disk
namespace Path

/-- The names below a base that parts lead to, unless they go up from the base itself. -/
def below? : List String → List String → Option (List String)
  | names, [] => some names
  | names, part :: parts =>
    if part = ".." ∧ names = [] then none else below? (next names part) parts

section Below

variable {names below parts : List String} {part : String}

theorem next_append (h : ¬(part = ".." ∧ names = [])) (base : Location) :
    next (base ++ names) part = base ++ next names part := by
  rw [next, next]
  split
  · rfl
  · split
    · rename_i hup
      exact List.dropLast_append_of_ne_nil fun hnil => h ⟨hup, hnil⟩
    · exact List.append_assoc _ _ _

/-- Below a base, parts lead to the same names whatever the base is. -/
theorem follow_below (h : below? names parts = some below) (base : Location) :
    follow (base ++ names) parts = base ++ below := by
  induction parts generalizing names with
  | nil =>
    rw [below?, Option.some.injEq] at h
    rw [follow_nil, h]
  | cons part parts ih =>
    rw [below?] at h
    split at h
    · cases h
    · rename_i hstays
      rw [follow_cons, next_append hstays, ih h]

/-- Once a base is left upwards, nothing tells from which of two neighbours the way came. -/
theorem follow_left (h : below? names parts = none) {base other : Location}
    (hparent : base.dropLast = other.dropLast) :
    follow (base ++ names) parts = follow (other ++ names) parts := by
  induction parts generalizing names with
  | nil => cases h
  | cons part parts ih =>
    rw [below?] at h
    split at h
    · rename_i hleaves
      obtain ⟨rfl, rfl⟩ := hleaves
      have hnext : ∀ place, next place ".." = place.dropLast := fun _ => rfl
      rw [List.append_nil, List.append_nil, follow_cons, follow_cons, hnext, hnext, hparent]
    · rename_i hstays
      rw [follow_cons, follow_cons, next_append hstays, next_append hstays, ih h]

/-- Parts that never go up lead on. -/
theorem below?_onward (h : ".." ∉ parts) (names : List String) :
    below? names parts = some (follow names parts) := by
  induction parts generalizing names with
  | nil => rfl
  | cons part parts ih =>
    rw [List.mem_cons, not_or] at h
    rw [below?, if_neg (fun hleaves => h.1 hleaves.1.symm), ih h.2, follow_cons]

end Below

theorem join_absolute {path : String} (h : isAbsolute path = true) (base : String) :
    join base path = path := by
  rw [join, if_pos h]

end Path

namespace Tree

variable {t u : Tree} {here place : Location} {path other : String} {data : ByteArray}

theorem write_eq_put (h : t.write here path data = .ok u) :
    ∃ executable, t.find? (Path.place here path) ≠ some .directory ∧
      u = t.put (Path.place here path) (.file data executable) := by
  obtain ⟨place, hlocate, hnode, rfl⟩ := write_eq_ok.1 h
  rw [← locate_eq_place hlocate]
  exact ⟨_, hnode, rfl⟩

/-- What is found at other places is what was found there before a file was written. -/
theorem look_write (h : t.write here path data = .ok u)
    (hplace : Path.place here other ≠ Path.place here path) (node : Node) :
    u.look here other = .ok node ↔ t.look here other = .ok node := by
  obtain ⟨executable, hfile, rfl⟩ := write_eq_put h
  have hput := find?_put t (ne_nil_of_find? hfile) (.file data executable)
  have hdirectory : ∀ place,
      (t.put (Path.place here path) (.file data executable)).find? place = some .directory ↔
        t.find? place = some .directory := by
    intro place
    rw [hput]
    split
    · rename_i hsame
      rw [hsame]
      exact ⟨nofun, fun hdir => absurd hdir hfile⟩
    · exact Iff.rfl
  rw [look_eq_ok, look_eq_ok]
  constructor
  · rintro ⟨place, hlocate, hnode⟩
    rw [hput, if_neg (by rwa [locate_eq_place hlocate])] at hnode
    exact ⟨place, locate_mono (fun place => (hdirectory place).1) hlocate, hnode⟩
  · rintro ⟨place, hlocate, hnode⟩
    refine ⟨place, locate_mono (fun place => (hdirectory place).2) hlocate, ?_⟩
    rwa [hput, if_neg (by rwa [locate_eq_place hlocate])]

end Tree
end Disk

namespace Notary

open Disk

/-- Files in two directories, neither of them inside the other one. -/
theorem Apart.below_ne {place place' : Location} (h : Apart place place')
    (names names' : List String) : place ++ names ≠ place' ++ names' := by
  intro he
  have hprefix : place <+: place' ++ names' := he ▸ List.prefix_append _ _
  rcases List.prefix_or_prefix_of_prefix hprefix (List.prefix_append _ _) with habove | habove
  · exact h.shelf_not_above habove
  · exact h.home_not_above habove

end Notary

namespace RootDocument

open Disk Notary

/-! ## Names of repositories -/

/-- The names below a trust directory to which a repository's name leads from `tuf`; none if it
leaves the directory. -/
def cache? (repo : String) : Option (List String) :=
  if Path.isAbsolute repo then none else Path.below? ["tuf"] (Path.parts repo)

/-- A name that never leaves the trust directory. -/
def Inside (repo : String) : Prop := ∃ names, cache? repo = some names

/-- A name that never leaves the trust directory and ends in `tuf` or beneath it. -/
def Enclosed (repo : String) : Prop := ∃ names, cache? repo = some ("tuf" :: names)

instance (repo : String) : Decidable (Inside repo) :=
  decidable_of_iff ((cache? repo).isSome = true) Option.isSome_iff_exists

theorem enclosed_iff_head? {repo : String} :
    Enclosed repo ↔ (cache? repo).bind List.head? = some "tuf" := by
  simp only [Enclosed, Option.bind_eq_some_iff, List.head?_eq_some_iff]
  exact ⟨fun ⟨names, h⟩ => ⟨_, h, names, rfl⟩, fun ⟨_, h, names, he⟩ => ⟨names, he ▸ h⟩⟩

instance (repo : String) : Decidable (Enclosed repo) := decidable_of_iff' _ enclosed_iff_head?

example : Enclosed "quay.io/user/repo" ∧ Enclosed "a/../b//./c" := by decide
example : Inside "../b" ∧ ¬Enclosed "../b" := by decide
example : ¬Inside "/shared" ∧ ¬Inside "a/../../../b" := by decide

section Places

variable {t u : Tree} {here : Location} {d e repo other : String} {names : List String}
  {document : RootDocument}

/-- So does a relative name that never goes up. -/
theorem enclosed_of_straight (h : Path.Straight repo) : Enclosed repo := by
  refine ⟨Path.names repo, ?_⟩
  rw [cache?, if_neg (by simp [h.relative]), Path.below?_onward h.onward, h.follow]
  rfl

theorem place_path (here : Location) (d repo : String) :
    Path.place here (path d repo) =
      Path.place here (Path.join (Path.join d "tuf") repo) ++ ["metadata", "root.json"] := by
  have hmetadata : Path.Plain "metadata" := by decide
  have hroot : Path.Plain "root.json" := by decide
  rw [path, Path.place_join_name hroot.proper, Path.place_join_name hmetadata.proper,
    List.append_assoc]
  rfl

theorem place_path_relative (h : Path.isAbsolute repo = false) (here : Location) (d : String) :
    Path.place here (path d repo) =
      Path.follow (Path.place here d ++ ["tuf"]) (Path.parts repo) ++
        ["metadata", "root.json"] := by
  have htuf : Path.Plain "tuf" := by decide
  rw [place_path, Path.place_join h, Path.place_join_name htuf.proper]

/-- A name that stays in the trust directory leads to the same names in each of them. -/
theorem place_path_inside (h : cache? repo = some names) (here : Location) (d : String) :
    Path.place here (path d repo) = Path.place here d ++ (names ++ ["metadata", "root.json"]) := by
  rw [cache?] at h
  split at h
  · cases h
  · rename_i hrelative
    rw [place_path_relative (by simpa using hrelative), Path.follow_below h, List.append_assoc]

/-- Any other name leads to one and the same file in all trust directories side by side. -/
theorem path_shared (h : ¬Inside repo)
    (hbeside : (Path.place here d).dropLast = (Path.place here e).dropLast) :
    Path.place here (path d repo) = Path.place here (path e repo) := by
  have hnone : cache? repo = none := by
    cases hcache : cache? repo with
    | none => rfl
    | some names => exact absurd ⟨names, hcache⟩ h
  rw [cache?] at hnone
  split at hnone
  · rename_i habsolute
    rw [place_path, place_path, Path.join_absolute habsolute, Path.join_absolute habsolute]
  · rename_i hrelative
    rw [place_path_relative (by simpa using hrelative),
      place_path_relative (by simpa using hrelative), Path.follow_left hnone hbeside]

theorem place_a : Path.place [] "/a" = ["a"] := by decide

theorem place_b : Path.place [] "/b" = ["b"] := by decide

theorem beside_ab : (Path.place [] "/a").dropLast = (Path.place [] "/b").dropLast := by
  rw [place_a, place_b]
  rfl

theorem apart_ab : Apart (Path.place [] "/a") (Path.place [] "/b") := by
  rw [place_a, place_b]
  exact ⟨by decide, by decide⟩

/-- Enclosed names, and no others, have their root document beneath `tuf` in each trust
directory. -/
theorem path_enclosed_iff :
    Enclosed repo ↔ ∀ here d, ∃ names, names ≠ [] ∧
      Path.place here (path d repo) = Path.place here d ++ "tuf" :: names := by
  constructor
  · rintro ⟨names, hnames⟩ here d
    exact ⟨names ++ ["metadata", "root.json"], by simp, by rw [place_path_inside hnames]; rfl⟩
  · intro hall
    by_cases hinside : Inside repo
    · obtain ⟨names, hnames⟩ := hinside
      obtain ⟨beneath, -, hplace⟩ := hall [] "/a"
      rw [place_path_inside hnames, List.append_cancel_left_eq] at hplace
      cases names with
      | nil => exact absurd (List.cons.inj hplace).1 (by decide)
      | cons name names =>
        obtain rfl := (List.cons.inj hplace).1
        exact ⟨names, hnames⟩
    · -- The place would be in both of two trust directories.
      obtain ⟨beneath, -, ha⟩ := hall [] "/a"
      obtain ⟨beneath', -, hb⟩ := hall [] "/b"
      rw [path_shared hinside beside_ab, hb, place_a, place_b] at ha
      exact absurd (List.cons.inj ha).1 (by decide)

theorem path_ne (h : Inside repo) (h' : Inside other)
    (hapart : Apart (Path.place here d) (Path.place here e)) :
    Path.place here (path d repo) ≠ Path.place here (path e other) := by
  obtain ⟨names, hnames⟩ := h
  obtain ⟨names', hnames'⟩ := h'
  rw [place_path_inside hnames, place_path_inside hnames']
  exact hapart.below_ne _ _

/-- Names that stay in the trust directory, and no others, keep all clients apart. -/
theorem path_apart_iff :
    Inside repo ↔ ∀ here d e, Apart (Path.place here d) (Path.place here e) →
      Path.place here (path d repo) ≠ Path.place here (path e repo) := by
  refine ⟨fun h _ _ _ => path_ne h h, fun hall => Decidable.byContradiction fun hnot => ?_⟩
  exact hall [] "/a" "/b" apart_ab (path_shared hnot beside_ab)

/-! ## Reading -/

theorem readText_of_load (h : load t here d repo = .ok document) :
    ∃ text, t.readText here (path d repo) = .ok text ∧ read text = .ok document := by
  unfold load at h
  extract_lets file at h
  split at h
  · cases h
  · rename_i text htext
    refine ⟨text, htext, ?_⟩
    split at h
    · cases h
    · rename_i found hread
      rw [hread, Except.ok.inj h]

/-- What is read is what the file at the place of the path shows. -/
theorem load_shows (h : load t here d repo = .ok document) :
    Shows (t.content (Path.place here (path d repo))) document := by
  obtain ⟨text, htext, hread⟩ := readText_of_load h
  obtain ⟨data, hdata, hutf8⟩ := Tree.readText_content htext
  exact ⟨data, text, hdata, hutf8, hread⟩

/-- Two trees on which a path leads to the same. -/
theorem load_congr (hlook : ∀ node, u.look here (path d repo) = .ok node →
    t.look here (path d repo) = .ok node) (h : load u here d repo = .ok document) :
    load t here d repo = .ok document := by
  obtain ⟨text, htext, hread⟩ := readText_of_load h
  obtain ⟨data, executable, hfile, hutf8⟩ := Tree.readText_eq_ok.1 htext
  exact load_of_readText (Tree.readText_eq_ok.2 ⟨data, executable, hlook _ hfile, hutf8⟩) hread

/-- A client's document is not read differently when that of another client has been written. -/
theorem load_write {data : ByteArray} (h : Inside repo) (h' : Inside other)
    (hapart : Apart (Path.place here d) (Path.place here e))
    (hwrite : t.write here (path e other) data = .ok u) :
    load u here d repo = .ok document ↔ load t here d repo = .ok document :=
  have hlook := Tree.look_write hwrite (path_ne h h' hapart)
  ⟨load_congr fun node => (hlook node).1, load_congr fun node => (hlook node).2⟩

end Places

/-- Where root documents are, by the name of the repository. Enclosed names, and no others, lead
beneath `tuf` in every trust directory; names inside, and no others, lead to different files in
trust directories apart. What a client reads is what the file at that place shows, and it reads the
same after another client's file has been written. -/
theorem path_contained (repo : String) :
    (Path.Straight repo → Enclosed repo) ∧
    (Enclosed repo ↔ ∀ here d, ∃ names, names ≠ [] ∧
      Path.place here (path d repo) = Path.place here d ++ "tuf" :: names) ∧
    (Inside repo ↔ ∀ here d e, Apart (Path.place here d) (Path.place here e) →
      Path.place here (path d repo) ≠ Path.place here (path e repo)) ∧
    ∀ (t : Tree) (here : Location) (d : String) (document : RootDocument),
      (load t here d repo = .ok document →
        Shows (t.content (Path.place here (path d repo))) document) ∧
      ∀ (e other : String) (data : ByteArray) (u : Tree), Inside repo → Inside other →
        Apart (Path.place here d) (Path.place here e) →
        t.write here (path e other) data = .ok u →
          (load u here d repo = .ok document ↔ load t here d repo = .ok document) :=
  ⟨enclosed_of_straight, path_enclosed_iff, path_apart_iff, fun _ _ _ _ =>
    ⟨load_shows, fun _ _ _ _ h h' hapart hwrite => load_write h h' hapart hwrite⟩⟩

/-- Two trust directories, the first with a document of `demo`, and a document elsewhere. -/
def cellarTree (data : ByteArray) : Tree :=
  ⟨[(["a"], .directory), (["a", "tuf"], .directory), (["a", "tuf", "demo"], .directory),
    (["a", "tuf", "demo", "metadata"], .directory),
    (["a", "tuf", "demo", "metadata", "root.json"], .file data false),
    (["b"], .directory), (["b", "tuf"], .directory), (["b", "tuf", "demo"], .directory),
    (["b", "tuf", "demo", "metadata"], .directory),
    (["shared"], .directory), (["shared", "metadata"], .directory),
    (["shared", "metadata", "root.json"], .file data false)]⟩

theorem write_cellarTree (data : ByteArray) :
    ∃ u, (cellarTree data).write [] (path "/b" "./demo") .empty = .ok u := ⟨_, rfl⟩

theorem load_cellarTree {d repo : String}
    (hlook : ∀ data, (cellarTree data).look [] (path d repo) = .ok (.file data false)) :
    load (cellarTree demoRecord.printedRoot) [] d repo = .ok demoRecord.seen :=
  load_of_readText (Tree.readText_eq_ok.2 ⟨_, _, hlook _, Text.fromUTF8?_toUTF8 _⟩)
    (read_rootDocument bounded_demoRecord.version)

/-- The first client reads its document, whatever the second one writes as its own. -/
theorem path_contained_cellar :
    ∃ u, (cellarTree demoRecord.printedRoot).write [] (path "/b" "./demo") .empty = .ok u ∧
      load u [] "/a" "demo" = .ok demoRecord.seen := by
  obtain ⟨u, hwrite⟩ := write_cellarTree demoRecord.printedRoot
  have hload : load (cellarTree demoRecord.printedRoot) [] "/a" "demo" = .ok demoRecord.seen :=
    load_cellarTree fun _ => rfl
  have hreads := (path_contained "demo").2.2.2 (cellarTree demoRecord.printedRoot) [] "/a"
    demoRecord.seen
  exact ⟨u, hwrite,
    (hreads.2 "/b" "./demo" .empty u (by decide) (by decide) apart_ab hwrite).2 hload⟩

/-- An absolute name is taken as a repository's, and both clients read the file to which it leads,
which is in neither trust directory. -/
theorem absolute_name_shared :
    Program.namedRepo? (some "/shared") = some "/shared" ∧
      Apart (Path.place [] "/a") (Path.place [] "/b") ∧
      ¬["a"] <+: Path.place [] (path "/a" "/shared") ∧
      ¬["b"] <+: Path.place [] (path "/b" "/shared") ∧
      load (cellarTree demoRecord.printedRoot) [] "/a" "/shared" = .ok demoRecord.seen ∧
      load (cellarTree demoRecord.printedRoot) [] "/b" "/shared" = .ok demoRecord.seen :=
  ⟨by decide, apart_ab, by decide, by decide, load_cellarTree fun _ => rfl,
    load_cellarTree fun _ => rfl⟩

end RootDocument
end TrustTrial
