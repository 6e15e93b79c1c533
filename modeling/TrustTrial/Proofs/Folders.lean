import TrustTrial.Proofs.Places

/-!
# TrustTrial.Proofs.Folders

Files in folders. A path may lead to a file in folders below a directory that are not there yet;
such a file is not found, and when it is written the folders are made first.

`Leads` says where a path goes, and `Clear` that its way is free: every folder on it is either a
directory, or nothing is there and nothing below.
-/

namespace TrustTrial
namespace Disk
namespace Path

/-! ## Paths that extend others -/

theorem endsInSlash_append {a b : String} (h : b ≠ "") :
    endsInSlash (a ++ b) = endsInSlash b := by
  have htoList : b.toList ≠ [] := by simpa using h
  obtain ⟨s, c, hs⟩ := List.eq_nil_or_concat b.toList |>.resolve_left htoList
  simp [endsInSlash, hs]

theorem parts_ne_nil (path : String) : parts path ≠ [] := by
  simp [parts, Text.parted, Text.partChars_ne_nil]

/-- A path that goes on from another one by names, the last of which is not empty. -/
structure Extends (base path : String) (names : List String) : Prop where
  parts : parts path = parts base ++ names
  absolute : isAbsolute path = isAbsolute base
  open_end : endsInSlash path = false
  nonempty : path ≠ ""

theorem Extends.refl {base : String} (hslash : endsInSlash base = false) (hne : base ≠ "") :
    Extends base base [] := ⟨by simp, rfl, hslash, hne⟩

theorem Extends.join {base path more : String} {names : List String} (h : Extends base path names)
    (hmore : isAbsolute more = false) (hslash : endsInSlash more = false) (hne : more ≠ "") :
    Extends base (Path.join path more) (names ++ Path.parts more) := by
  have hempty : path.isEmpty = false := by simpa using h.nonempty
  have hjoin : Path.join path more = path ++ "/" ++ more := by
    simp [Path.join, hmore, h.open_end, hempty]
  refine ⟨?_, ?_, ?_, ?_⟩
  · rw [hjoin, parts_slash, h.parts, List.append_assoc]
  · rw [isAbsolute_join h.nonempty hmore, h.absolute]
  · rw [hjoin, endsInSlash_append hne, hslash]
  · rw [hjoin]
    simp [hne]

theorem Plain.endsInSlash {name : String} (h : Plain name) : endsInSlash name = false := by
  rw [Path.endsInSlash]
  split
  · rename_i hlast
    exact (h.single (List.mem_of_getLast? hlast)).elim
  · rfl

theorem Extends.name {base path name : String} {names : List String} (h : Extends base path names)
    (hname : Plain name) : Extends base (Path.join path name) (names ++ [name]) := by
  have hjoin := h.join hname.isAbsolute hname.endsInSlash hname.named
  rwa [hname.parts] at hjoin

/-! ## Parents -/

theorem intercalate_partChars (separator : Char) (s : List Char) :
    [separator].intercalate (Text.partChars separator s) = s := by
  induction s with
  | nil => rfl
  | cons c s ih =>
    rw [Text.partChars]
    split
    · rename_i hc
      rw [List.intercalate_cons_of_ne_nil (Text.partChars_ne_nil separator s), ih, hc]
      rfl
    · cases h : Text.partChars separator s with
      | nil => exact absurd h (Text.partChars_ne_nil separator s)
      | cons part parts =>
        rw [h] at ih
        dsimp only
        rw [List.intercalate_cons_cons_left, ih]

theorem intercalate_parts (path : String) : "/".intercalate (parts path) = path := by
  apply String.toList_injective
  rw [String.toList_intercalate, parts, Text.parted, List.map_map]
  have hmap : (String.toList ∘ String.ofList) = (id : List Char → List Char) := by
    funext s
    simp
  rw [hmap, List.map_id]
  exact intercalate_partChars '/' path.toList

/-- The path without its last name leads to where the name is. -/
theorem parent_eq {path name : String} {front : List String} (hparts : parts path = front ++ [name])
    (hfront : front ≠ []) (hname : parts name = [name]) :
    parts (parent path) = front ∧ path = parent path ++ "/" ++ name := by
  have hparent : parent path = "/".intercalate front := by
    rw [parent, hparts, List.dropLast_concat]
  have hpath : path = parent path ++ "/" ++ name := by
    rw [hparent, ← intercalate_parts path, hparts,
      String.intercalate_append_of_ne_nil hfront (by simp)]
    simp
  refine ⟨?_, hpath⟩
  rw [hpath, parts_slash, hname, List.append_cancel_right_eq] at hparts
  exact hparts

end Path

namespace Tree

/-! ## Ways -/

/-- Where the walk along a path starts. -/
def origin (here : Location) (path : String) : Location :=
  if Path.isAbsolute path then [] else here

/-- A path to a file in folders below a directory, none of which need to be there. -/
structure Leads (t : Tree) (here : Location) (path : String) (home : Location)
    (folders : List String) (name : String) : Prop where
  accepted : refuse? path = none
  way : ∃ lead, lead ≠ [] ∧ Path.parts path = lead ++ folders ++ [name] ∧
    t.walk (origin here path) lead = .ok home
  folders : ∀ folder ∈ folders, Path.Plain folder
  name : Path.Plain name

/-- A way along folders that nothing blocks: each of them is a directory, or nothing is there and
nothing below. -/
structure Clear (t : Tree) (home : Location) (folders : List String) : Prop where
  directory : t.find? home = some .directory
  free : ∀ front, front <+: folders → t.find? (home ++ front) = some .directory ∨
    ∀ place, home ++ front <+: place → t.find? place = none

/-- Where a directory is empty, every way below it is free. -/
theorem clear_of_nothing {t : Tree} {home : Location} (hdir : t.find? home = some .directory)
    (hnone : ∀ name names, t.find? (home ++ name :: names) = none) (folders : List String) :
    Clear t home folders := by
  refine ⟨hdir, fun front _ => ?_⟩
  cases front with
  | nil => exact .inl (by rwa [List.append_nil])
  | cons name front =>
    refine .inr fun place hplace => ?_
    obtain ⟨rest, rfl⟩ := hplace
    rw [List.append_assoc]
    exact hnone name _

theorem Leads.mono {t u : Tree} {here home : Location} {path name : String} {folders : List String}
    (hkeep : ∀ place, t.find? place = some .directory → u.find? place = some .directory)
    (h : Leads t here path home folders name) : Leads u here path home folders name := by
  obtain ⟨lead, hne, hparts, hwalk⟩ := h.way
  exact ⟨h.accepted, ⟨lead, hne, hparts, walk_mono hkeep hwalk⟩, h.folders, h.name⟩

/-- A path that goes on from the path of a directory. -/
theorem Leads.of_extends {t : Tree} {here home : Location} {base path name : String}
    {folders : List String} (hbase : t.locate here base = .ok home)
    (hpath : Path.Extends base path (folders ++ [name])) (hrefuse : refuse? path = none)
    (hfolders : ∀ folder ∈ folders, Path.Plain folder) (hname : Path.Plain name) :
    Leads t here path home folders name := by
  refine ⟨hrefuse, ⟨Path.parts base, Path.parts_ne_nil base, ?_, ?_⟩, hfolders, hname⟩
  · rw [hpath.parts, List.append_assoc]
  · rw [origin, hpath.absolute]
    exact (locate_eq_ok hbase).2

/-- A file in a directory, whose path may end in a slash. -/
theorem Leads.of_join {t : Tree} {here home : Location} {base name : String}
    (hbase : t.locate here base = .ok home) (hname : Path.Plain name)
    (hrefuse : refuse? (Path.join base name) = none) :
    Leads t here (Path.join base name) home [] name := by
  obtain ⟨hrefuse', hwalk⟩ := locate_eq_ok hbase
  have hne := ne_empty_of_refuse? hrefuse'
  have habsolute := Path.isAbsolute_join hne hname.isAbsolute
  obtain ⟨front, hjoin, hfront⟩ := Path.join_eq hne hname.isAbsolute
  refine ⟨hrefuse, ⟨Path.parts front, Path.parts_ne_nil front, ?_, ?_⟩, by simp, hname⟩
  · rw [hjoin, Path.parts_slash, hname.parts, List.append_nil]
  · rw [origin, habsolute]
    exact walk_front hwalk hfront

theorem Clear.tail {t : Tree} {home : Location} {folder : String} {folders : List String}
    (h : Clear t home (folder :: folders)) (hdir : t.find? (home ++ [folder]) = some .directory) :
    Clear t (home ++ [folder]) folders := by
  refine ⟨hdir, fun front hfront => ?_⟩
  have hfree := h.free (folder :: front) (List.cons_prefix_cons.2 ⟨rfl, hfront⟩)
  simpa using hfree

/-- A walk along a clear way arrives, unless a folder is missing. -/
theorem Clear.walk {t : Tree} {home : Location} {folders : List String} {name : String}
    (h : Clear t home folders) (hfolders : ∀ folder ∈ folders, Path.Plain folder)
    (hname : Path.Plain name) :
    t.walk home (folders ++ [name]) = .ok (home ++ folders ++ [name]) ∨
      t.walk home (folders ++ [name]) = .error .missing ∧
        ∃ front, front <+: folders ∧ ∀ place, home ++ front <+: place → t.find? place = none := by
  induction folders generalizing home with
  | nil =>
    rw [List.nil_append, List.append_nil]
    exact .inl (walk_name hname h.directory)
  | cons folder folders ih =>
    have hfolder := hfolders folder List.mem_cons_self
    have hstep := step_name h.directory hfolder.named hfolder.notDot hfolder.notDots hfolder.short
    rw [List.cons_append, Tree.walk, hstep]
    rcases h.free [folder] (by simp) with hdir | hnone
    · rcases ih (h.tail hdir) fun f hf => hfolders f (List.mem_cons_of_mem _ hf) with
        hok | ⟨herror, front, hfront, hnone⟩
      · exact .inl (by simpa using hok)
      · refine .inr ⟨herror, folder :: front, List.cons_prefix_cons.2 ⟨rfl, hfront⟩, ?_⟩
        simpa using hnone
    · have hmissing := hnone _ List.prefix_rfl
      refine .inr ⟨?_, [folder], by simp, hnone⟩
      cases folders <;> simp [Tree.walk, step, hmissing]

section Leads

variable {t : Tree} {here home : Location} {path name : String} {folders : List String}

theorem Leads.locate_eq (h : Leads t here path home folders name) :
    t.locate here path = t.walk home (folders ++ [name]) := by
  obtain ⟨lead, -, hparts, hwalk⟩ := h.way
  rw [origin] at hwalk
  rw [locate, h.accepted, hparts, List.append_assoc, walk_append]
  simp only [hwalk]

/-- A file that is there is found. -/
theorem Leads.locate_of_some (h : Leads t here path home folders name)
    (hclear : Clear t home folders) {node : Node}
    (hnode : t.find? (home ++ folders ++ [name]) = some node) :
    t.locate here path = .ok (home ++ folders ++ [name]) := by
  rcases hclear.walk h.folders h.name with hok | ⟨-, front, hfront, hnone⟩
  · rw [h.locate_eq, hok]
  · have hbelow : home ++ front <+: home ++ folders ++ [name] :=
      ((List.prefix_append_right_inj home).2 hfront).trans (List.prefix_append _ _)
    rw [hnone _ hbelow] at hnode
    cases hnode

/-- What a path along a clear way leads to. -/
theorem Leads.look (h : Leads t here path home folders name) (hclear : Clear t home folders) :
    t.look here path = match t.find? (home ++ folders ++ [name]) with
      | none => .error .missing
      | some node => .ok node := by
  cases hnode : t.find? (home ++ folders ++ [name]) with
  | some node =>
    rw [look_of_locate (h.locate_of_some hclear hnode), hnode]
  | none =>
    have hlocate := h.locate_eq
    rcases hclear.walk h.folders h.name with hok | ⟨herror, -⟩
    · rw [hok] at hlocate
      rw [look_of_locate hlocate, hnode]
    · rw [herror] at hlocate
      simp only [Tree.look, hlocate]

/-! ## Making folders -/

theorem refuse?_append {a b : String} (ha : a ≠ "") (h : refuse? (a ++ b) = none) :
    refuse? a = none := by
  simp only [refuse?] at h ⊢
  split at h
  · cases h
  · rename_i hnul
    split at h
    · cases h
    · split at h
      · cases h
      · rename_i hlong
        rw [String.utf8ByteSize_append] at hlong
        rw [if_neg, if_neg ha, if_neg (by omega)]
        intro hnul'
        simp [Path.hasNul] at hnul hnul'
        exact hnul.1 hnul'

theorem makeWalk_of_walk {place mid : Location} {lead : List String} (made : Bool)
    (hwalk : t.walk place lead = .ok mid) (hmid : t.find? mid = some .directory)
    (names : List String) :
    t.makeWalk made place (lead.filter (fun part => part ≠ "" ∧ part ≠ ".") ++ names) =
      t.makeWalk made mid names := by
  induction lead generalizing place with
  | nil =>
    cases hwalk
    rfl
  | cons part lead ih =>
    rw [walk] at hwalk
    split at hwalk
    · cases hwalk
    · rename_i next hstep
      have hdir := step_eq_ok hstep
      by_cases hpart : part = "" ∨ part = "."
      · rw [List.filter_cons_of_neg (by simpa [Decidable.or_iff_not_imp_left] using hpart)]
        rw [step, hdir] at hstep
        simp only [hpart, if_true] at hstep
        cases hstep
        exact ih hwalk
      · have hnext : t.find? next = some .directory := by
          cases lead with
          | nil =>
            cases hwalk
            exact hmid
          | cons other lead =>
            rw [walk] at hwalk
            split at hwalk
            · cases hwalk
            · rename_i hstep'
              exact step_eq_ok hstep'
        rw [not_or] at hpart
        rw [List.filter_cons_of_pos (by simp [hpart]), List.cons_append, makeWalk, hstep]
        simp only [hnext]
        exact ih hwalk

/-- What making folders along a clear way does. -/
structure Made (t : Tree) (home : Location) (folders : List String) (t' : Tree) : Prop where
  directory : ∀ front, front <+: folders → t'.find? (home ++ front) = some .directory
  elsewhere : ∀ place, (∀ front, front <+: folders → place ≠ home ++ front) →
    t'.find? place = t.find? place

theorem Made.cons {u t' : Tree} {folder : String} (hdir : t.find? home = some .directory)
    (hu : ∀ place, place ≠ home ++ [folder] → u.find? place = t.find? place)
    (h : Made u (home ++ [folder]) folders t') : Made t home (folder :: folders) t' := by
  constructor
  · intro front hfront
    cases front with
    | nil =>
      rw [List.append_nil, h.elsewhere home (by simp), hu home (by simp)]
      exact hdir
    | cons other front =>
      obtain ⟨rfl, hrest⟩ := List.cons_prefix_cons.1 hfront
      simpa using h.directory front hrest
  · intro place hplace
    rw [h.elsewhere place, hu place]
    · exact hplace [folder] (by simp)
    · intro front hfront
      have hne := hplace (folder :: front) (List.cons_prefix_cons.2 ⟨rfl, hfront⟩)
      simpa using hne

theorem Clear.makeWalk (h : Clear t home folders)
    (hfolders : ∀ folder ∈ folders, Path.Plain folder) (made : Bool) :
    ∃ t', t.makeWalk made home folders = (none, t') ∧ Made t home folders t' := by
  induction folders generalizing t home made with
  | nil =>
    refine ⟨t, rfl, fun front hfront => ?_, fun _ _ => rfl⟩
    rw [List.prefix_nil.1 hfront, List.append_nil]
    exact h.directory
  | cons folder folders ih =>
    have hfolder := hfolders folder List.mem_cons_self
    have hrest := fun f hf => hfolders f (List.mem_cons_of_mem folder hf)
    have hstep := step_name h.directory hfolder.named hfolder.notDot hfolder.notDots hfolder.short
    rw [Tree.makeWalk, hstep]
    rcases h.free [folder] (by simp) with hdir | hnone
    · obtain ⟨t', hwalk, hmade⟩ := ih (h.tail hdir) hrest made
      simp only [hdir]
      exact ⟨t', hwalk, hmade.cons h.directory fun _ _ => rfl⟩
    · have hfind := find?_put t (show home ++ [folder] ≠ [] by simp) .directory
      -- Below the new folder everything is as free as before.
      have hclear : Clear (t.put (home ++ [folder]) .directory) (home ++ [folder]) folders := by
        refine ⟨by rw [hfind, if_pos rfl], fun front _ => ?_⟩
        cases front with
        | nil => exact .inl (by rw [List.append_nil, hfind, if_pos rfl])
        | cons other front =>
          refine .inr fun place hplace => ?_
          rw [hfind, if_neg]
          · exact hnone place ((List.prefix_append _ _).trans hplace)
          · rintro rfl
            simpa using hplace.length_le
      obtain ⟨t', hwalk, hmade⟩ := ih hclear hrest true
      simp only [hnone _ List.prefix_rfl]
      exact ⟨t', hwalk, hmade.cons h.directory fun place hplace => by rw [hfind, if_neg hplace]⟩

theorem Leads.makeDirectories (h : Leads t here path home folders name)
    (hdir : t.find? home = some .directory) :
    t.makeDirectories here (Path.parent path) = t.makeWalk false home folders := by
  obtain ⟨lead, hne, hparts, hwalk⟩ := h.way
  obtain ⟨hparent, hpath⟩ := Path.parent_eq hparts (by simp [hne]) h.name.parts
  have hfolders : folders.filter (fun part => part ≠ "" ∧ part ≠ ".") = folders := by
    rw [List.filter_eq_self]
    intro folder hfolder
    have hplain := h.folders folder hfolder
    simp [hplain.named, hplain.notDot]
  have hnames : Path.names (Path.parent path) =
      lead.filter (fun part => part ≠ "" ∧ part ≠ ".") ++ folders := by
    rw [Path.names, hparent, List.filter_append, hfolders]
  have hmake := makeWalk_of_walk false hwalk hdir folders
  rw [← hnames] at hmake
  rw [Tree.makeDirectories]
  cases hcases : Path.names (Path.parent path) with
  | nil =>
    rw [hcases] at hmake
    exact hmake
  | cons part parts =>
    have hsome : Path.parent path ≠ "" := by
      intro hempty
      rw [hempty] at hcases
      exact nomatch hcases
    have haccepted := h.accepted
    rw [hpath, String.append_assoc] at haccepted
    rw [hcases, origin, hpath, String.append_assoc, Path.isAbsolute_append hsome] at hmake
    simp only [refuse?_append hsome haccepted]
    exact hmake

/-! ## Writing files -/

/-- What writing a file does, folders on its way included. -/
structure Written (t : Tree) (home : Location) (folders : List String) (name : String)
    (data : ByteArray) (t' : Tree) : Prop where
  file : ∃ executable, t'.find? (home ++ folders ++ [name]) = some (.file data executable)
  directory : ∀ front, front <+: folders → t'.find? (home ++ front) = some .directory
  elsewhere : ∀ place, place ≠ home ++ folders ++ [name] →
    (∀ front, front <+: folders → place ≠ home ++ front) → t'.find? place = t.find? place

/-- A file on a clear way can be written, unless a directory is there. -/
theorem Leads.write (h : Leads t here path home folders name) (hclear : Clear t home folders)
    (hfile : t.find? (home ++ folders ++ [name]) ≠ some .directory) (data : ByteArray) :
    ∃ u t', t.makeDirectories here (Path.parent path) = (none, u) ∧
      u.write here path data = .ok t' ∧ Written t home folders name data t' := by
  obtain ⟨u, hwalk, hmade⟩ := hclear.makeWalk h.folders false
  have hkeep : ∀ place, t.find? place = some .directory → u.find? place = some .directory := by
    intro place hplace
    by_cases hfront : ∃ front, front <+: folders ∧ place = home ++ front
    · obtain ⟨front, hfront, rfl⟩ := hfront
      exact hmade.directory front hfront
    · rw [hmade.elsewhere place fun front hp he => hfront ⟨front, hp, he⟩]
      exact hplace
  have hhome : u.find? home = some .directory := hkeep home hclear.directory
  have hclear' : Clear u home folders := ⟨hhome, fun front hp => .inl (hmade.directory front hp)⟩
  have hplace : u.locate here path = .ok (home ++ folders ++ [name]) := by
    rw [(h.mono hkeep).locate_eq]
    rcases hclear'.walk h.folders h.name with hok | ⟨-, front, hfront, hnone⟩
    · exact hok
    · have hdir := hmade.directory front hfront
      rw [hnone _ List.prefix_rfl] at hdir
      cases hdir
  -- The file is in none of the places of the folders.
  have hbeyond : ∀ front, front <+: folders → home ++ folders ++ [name] ≠ home ++ front := by
    intro front hfront he
    have hlength := congrArg List.length he
    have hle := hfront.length_le
    simp only [List.length_append, List.length_singleton] at hlength
    omega
  have hsame := hmade.elsewhere _ hbeyond
  have hne : home ++ folders ++ [name] ≠ [] := by simp
  rw [h.makeDirectories hclear.directory]
  refine ⟨u, _, hwalk, write_eq hplace (hsame ▸ hfile) data, ⟨_, find?_put_self hne _⟩,
    fun front hfront => ?_, fun place hplace hp => ?_⟩
  · rw [find?_put_of_ne hne _ (hbeyond front hfront).symm]
    exact hmade.directory front hfront
  · rw [find?_put_of_ne hne _ hplace]
    exact hmade.elsewhere place hp

end Leads

end Tree
end Disk
end TrustTrial
