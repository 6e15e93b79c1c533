import TrustTrial.Proofs.Beside
import TrustTrial.Proofs.Following

/-!
# TrustTrial.Proofs.Plots

What the requests about one repository use of a server and of the clients' trust directories: the
repository's record, its staged additions and its root documents are its own, and the clients' keys
are shared with the other repositories. However such a request ends, it stays on that plot.
-/

namespace TrustTrial
namespace Notary

open Disk Disk.Tree Step

/-! ## Trust directories -/

/-- Trust directories of which none is inside another one, or inside the server's directory, or around
it. -/
structure Separate (shelf : Location) (homes : Location → Prop) : Prop where
  apart : ∀ home, homes home → Apart shelf home
  single : ∀ home home', homes home → homes home' → home <+: home' → home = home'

section Separate

variable {shelf home home' : Location} {homes : Location → Prop} {a b : List String}

/-- Of two places in trust directories, one is above the other one only in the same directory. -/
theorem Separate.below (hh : Separate shelf homes) (h : homes home) (h' : homes home')
    (hp : home ++ a <+: home' ++ b) : home = home' ∧ a <+: b := by
  have hsame : home = home' := by
    rcases List.prefix_or_prefix_of_prefix ((List.prefix_append home a).trans hp)
      (List.prefix_append home' b) with hle | hle
    · exact hh.single home home' h h' hle
    · exact (hh.single home' home h' h hle).symm
  subst hsame
  exact ⟨rfl, (List.prefix_append_right_inj home).1 hp⟩

/-- No place in a trust directory is above or below one of the server's. -/
theorem Separate.not_shelf (hh : Separate shelf homes) (h : homes home) :
    ¬shelf ++ a <+: home ++ b ∧ ¬home ++ b <+: shelf ++ a := by
  have hapart := hh.apart home h
  have hnot : ∀ place, shelf <+: place → ¬home <+: place := by
    intro place hshelf hhome
    rcases List.prefix_or_prefix_of_prefix hshelf hhome with hle | hle
    · exact hapart.shelf_not_above hle
    · exact hapart.home_not_above hle
  exact ⟨fun hp => hnot _ ((List.prefix_append shelf a).trans hp) (List.prefix_append home b),
    fun hp => hnot _ (List.prefix_append shelf a) ((List.prefix_append home b).trans hp)⟩

theorem Separate.eq (hh : Separate shelf homes) (h : homes home) (h' : homes home')
    (he : home ++ a = home' ++ b) : home = home' ∧ a = b := by
  obtain ⟨rfl, -⟩ := hh.below h h' (he ▸ List.prefix_rfl : home ++ a <+: home' ++ b)
  exact ⟨rfl, List.append_cancel_left he⟩

theorem Separate.ne_shelf (hh : Separate shelf homes) (h : homes home) : shelf ++ a ≠ home ++ b :=
  fun he => (hh.not_shelf h).1 (he ▸ List.prefix_rfl : shelf ++ a <+: home ++ b)

end Separate

/-- The files that a client has of a repository, seen from where it keeps those of all repositories. -/
def repoFiles (repo : String) : List (List String) :=
  [Path.names repo ++ ["changelist.json"], Path.names repo ++ ["metadata", "root.json"]]

theorem stagedPlace_eq (home : Location) (repo : String) : stagedPlace home repo =
    home ++ "tuf" :: (Path.names repo ++ ["changelist.json"]) := by simp [stagedPlace]

theorem rootPlace_eq (home : Location) (repo : String) : rootPlace home repo =
    home ++ "tuf" :: (Path.names repo ++ ["metadata", "root.json"]) := by simp [rootPlace]

/-! ## Plots -/

/-- A file that keys can be read from, or no file. -/
def KeysNode (node : Option Node) : Prop :=
  node = none ∨ ∃ data x keys, node = some (.file data x) ∧
    Told (.listOf LocalKey.shape) (toList? LocalKey.ofValue?) (some data) keys

theorem keysNode_printed (keys : List LocalKey) (x : Bool) :
    KeysNode (some (.file (printedKeys keys) x)) :=
  .inr ⟨_, x, keys, rfl, _, _, rfl, Text.fromUTF8?_toUTF8 _, readAs_keys keys⟩

/-- What the requests about a repository use. -/
def plotOf {shelf : Location} {homes : Location → Prop} (hh : Separate shelf homes) (repo : String) :
    Plot where
  own place := place = recordPlace shelf repo ∨
    ∃ home, homes home ∧ ∃ file ∈ repoFiles repo, place = home ++ "tuf" :: file
  shared place := ∃ home, homes home ∧ place = keysPlace home
  valid := KeysNode
  not_directory := by
    rintro (hnone | ⟨data, x, keys, hfile, -⟩)
    · cases hnone
    · cases hfile
  disjoint := by
    rintro _ (rfl | ⟨home, hhome, file, -, rfl⟩) ⟨home', hhome', he⟩
    · exact hh.ne_shelf hhome' he
    · exact absurd (List.cons.inj (hh.eq hhome hhome' he).2).1 (by decide)
  shared_end := by
    rintro _ _ ⟨home, hhome, rfl⟩ ((rfl | ⟨home', hhome', file, -, rfl⟩) | ⟨home', hhome', rfl⟩) hp
    · exact absurd hp (hh.not_shelf hhome).2
    · obtain ⟨-, hp⟩ := hh.below hhome hhome' hp
      exact absurd (List.cons_prefix_cons.1 hp).1 (by decide)
    · rw [(hh.below hhome hhome' hp).1]

/-- Two repositories of which none has a file in the place of one of the other's, or above it. -/
structure Unmixed (repo other : String) : Prop where
  records : recordName repo ≠ recordName other
  files : ∀ file ∈ repoFiles repo, ∀ file' ∈ repoFiles other, ¬file <+: file' ∧ ¬file' <+: file

/-- The files of a repository whose name is a single one are below that name. -/
theorem repoFiles_single {repo : String} (h : Path.Proper repo) {file : List String}
    (hfile : file ∈ repoFiles repo) : ∃ rest, file = repo :: rest := by
  have hnames : Path.names repo = [repo] := by simp [Path.names, h.parts, h.named, h.notDot]
  rw [repoFiles, hnames] at hfile
  simp only [List.mem_cons, List.not_mem_nil, or_false] at hfile
  rcases hfile with rfl | rfl
  · exact ⟨_, rfl⟩
  · exact ⟨_, rfl⟩

theorem recordName_single {repo : String} (h : Path.Proper repo) :
    recordName repo = repo ++ ".json" := by
  apply String.toList_injective
  rw [toList_recordName, String.toList_append]
  refine congrArg (· ++ _) ((List.map_congr_left fun c hc => if_neg ?_).trans (List.map_id _))
  rintro rfl
  exact h.single hc

/-- Repositories whose names are different single ones are kept apart. -/
theorem unmixed_single {repo other : String} (h : Path.Proper repo) (h' : Path.Proper other)
    (hne : repo ≠ other) : Unmixed repo other where
  records := by
    rw [recordName_single h, recordName_single h']
    intro he
    have hchars : repo.toList ++ ".json".toList = other.toList ++ ".json".toList := by
      rw [← String.toList_append, ← String.toList_append, he]
    exact hne (String.toList_injective (List.append_cancel_right hchars))
  files := by
    intro file hfile file' hfile'
    obtain ⟨rest, rfl⟩ := repoFiles_single h hfile
    obtain ⟨rest', rfl⟩ := repoFiles_single h' hfile'
    exact ⟨fun hp => hne (List.cons_prefix_cons.1 hp).1,
      fun hp => hne (List.cons_prefix_cons.1 hp).1.symm⟩

/-! ## Places off a plot -/

section Plots

variable {shelf home : Location} {homes : Location → Prop} (hh : Separate shelf homes)
  {repo other name : String}

theorem not_shared_shelf (names : List String) : ¬(plotOf hh repo).shared (shelf ++ names) := by
  rintro ⟨home, hhome, he⟩
  exact hh.ne_shelf hhome he

theorem open_shelf (hname : name ≠ recordName repo) : (plotOf hh repo).Open (shelf ++ [name]) where
  not_own := by
    rintro (he | ⟨home, hhome, file, -, he⟩)
    · exact hname (by simpa [recordPlace] using he)
    · exact hh.ne_shelf hhome he
  apart := by
    rintro _ ((rfl | ⟨home, hhome, file, -, rfl⟩) | ⟨home, hhome, rfl⟩) hp
    · rcases hp with hp | hp
      · exact hp.eq_of_length (by simp [recordPlace])
      · exact (hp.eq_of_length (by simp [recordPlace])).symm
    · exact (hp.elim (hh.not_shelf hhome).2 (hh.not_shelf hhome).1).elim
    · exact (hp.elim (hh.not_shelf hhome).2 (hh.not_shelf hhome).1).elim

theorem not_shared_file (hhome : homes home) (file : List String) :
    ¬(plotOf hh repo).shared (home ++ "tuf" :: file) := by
  rintro ⟨home', hhome', he⟩
  exact absurd (List.cons.inj (hh.eq hhome hhome' he).2).1 (by decide)

theorem open_file (hhome : homes home) {file : List String}
    (hfile : ∀ file' ∈ repoFiles repo, ¬file' <+: file ∧ ¬file <+: file') :
    (plotOf hh repo).Open (home ++ "tuf" :: file) := by
  have hapart : ∀ q, (plotOf hh repo).Has q →
      ¬(q <+: home ++ "tuf" :: file ∨ home ++ "tuf" :: file <+: q) := by
    rintro _ ((rfl | ⟨home', hhome', file', hmem, rfl⟩) | ⟨home', hhome', rfl⟩) (hp | hp)
    · exact (hh.not_shelf hhome).1 hp
    · exact (hh.not_shelf hhome).2 hp
    · obtain ⟨-, hp⟩ := hh.below hhome' hhome hp
      exact (hfile file' hmem).1 (List.cons_prefix_cons.1 hp).2
    · obtain ⟨-, hp⟩ := hh.below hhome hhome' hp
      exact (hfile file' hmem).2 (List.cons_prefix_cons.1 hp).2
    · obtain ⟨-, hp⟩ := hh.below hhome' hhome hp
      exact absurd (List.cons_prefix_cons.1 hp).1 (by decide)
    · obtain ⟨-, hp⟩ := hh.below hhome hhome' hp
      exact absurd (List.cons_prefix_cons.1 hp).1 (by decide)
  exact ⟨fun hown => hapart _ (.inl hown) (.inl List.prefix_rfl),
    fun q hq hp => absurd hp (hapart q hq)⟩

theorem open_repoFile (h : Unmixed repo other) (hhome : homes home) {file : List String}
    (hfile : file ∈ repoFiles other) : (plotOf hh repo).Open (home ++ "tuf" :: file) :=
  open_file hh hhome fun file' hfile' => h.files file' hfile' file hfile

theorem open_keys (hhome : homes home) : (plotOf hh repo).Open (keysPlace home) := by
  have hshared : (plotOf hh repo).shared (keysPlace home) := ⟨home, hhome, rfl⟩
  refine ⟨fun hown => (plotOf hh repo).disjoint _ hown hshared, fun q hq hp => ?_⟩
  rcases hp with hp | hp
  · rcases hq with (rfl | ⟨home', hhome', file', -, rfl⟩) | ⟨home', hhome', rfl⟩
    · exact absurd hp (hh.not_shelf hhome).1
    · obtain ⟨-, hp⟩ := hh.below hhome' hhome hp
      exact absurd (List.cons_prefix_cons.1 hp).1 (by decide)
    · rw [(hh.below hhome' hhome hp).1]
  · exact ((plotOf hh repo).shared_end _ q hshared hq hp).symm

end Plots

/-! ## Clients on a tree -/

/-- A client at work on a regular tree: its server, and its trust directory among others. -/
structure Placed (t : Tree) (here : Location) (server trustDir : String) (shelf : Location)
    (homes : Location → Prop) (home : Location) : Prop where
  regular : t.Regular
  working : t.find? here = some .directory
  addressed : Addressed t here server trustDir shelf home
  among : homes home

section Placed

variable {t u : Tree} {here shelf home : Location} {server trustDir repo name : String}
  {homes : Location → Prop}

theorem Placed.reaches_shelf (h : Placed t here server trustDir shelf homes home)
    (hname : Path.Proper name) : t.Reaches here (Path.join server name) :=
  h.addressed.server_steady.reaches h.regular h.working hname

theorem Placed.reaches_keys (h : Placed t here server trustDir shelf homes home) :
    t.Reaches here (keysPath trustDir) := by
  have hprivate : Path.Plain "private" := by decide
  have hkeys : Path.Plain "keys.json" := by decide
  exact (h.addressed.home_steady.join hprivate.proper.straight).reaches h.regular h.working hkeys.proper

theorem Placed.repo_steady (h : Placed t here server trustDir shelf homes home)
    (hrepo : Path.Straight repo) : t.Steady here (Path.join (Path.join trustDir "tuf") repo) :=
  (h.addressed.home_steady.join plain_tuf.proper.straight).join hrepo

theorem Placed.reaches_staged (h : Placed t here server trustDir shelf homes home)
    (hrepo : Path.Straight repo) : t.Reaches here (stagedPath trustDir repo) :=
  (h.repo_steady hrepo).reaches h.regular h.working plain_changelist.proper

theorem Placed.reaches_root (h : Placed t here server trustDir shelf homes home)
    (hrepo : Path.Straight repo) : t.Reaches here (rootPath trustDir repo) := by
  have hmetadata : Path.Plain "metadata" := by decide
  have hroot : Path.Plain "root.json" := by decide
  exact ((h.repo_steady hrepo).join hmetadata.proper.straight).reaches h.regular h.working hroot.proper

end Placed

end Notary
end TrustTrial
