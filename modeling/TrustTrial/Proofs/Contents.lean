import TrustTrial.Proofs.Folders

/-!
# TrustTrial.Proofs.Contents

What the files of a tree hold, place by place, and what a change does to that.

Where a path leads is settled by its parts alone (`Path.place`); a tree only decides whether the
way is free. So a change of a file is a change of `Tree.content` at one place, whatever else is on
the tree, as long as the tree is `Regular`: every entry stands in a directory.
-/

namespace TrustTrial
namespace Disk

/-! ## Places of paths -/

namespace Path

/-- One part of a path, taken from a place. -/
def next (place : Location) (part : String) : Location :=
  if part = "" ∨ part = "." then place
  else if part = ".." then place.dropLast
  else place ++ [part]

def follow (place : Location) (parts : List String) : Location := parts.foldl next place

/-- The place that a path names, whether the way there is free or not. -/
def place (here : Location) (path : String) : Location :=
  follow (Tree.origin here path) (parts path)

/-- A relative path that never goes up. -/
structure Straight (path : String) : Prop where
  relative : isAbsolute path = false
  onward : ".." ∉ parts path

/-- A single name, of any length. -/
structure Proper (name : String) : Prop where
  single : '/' ∉ name.toList
  named : name ≠ ""
  notDot : name ≠ "."
  notDots : name ≠ ".."

theorem Plain.proper {name : String} (h : Plain name) : Proper name :=
  ⟨h.single, h.named, h.notDot, h.notDots⟩

theorem Proper.parts {name : String} (h : Proper name) : parts name = [name] :=
  Text.parted_of_not_mem h.single

theorem Proper.straight {name : String} (h : Proper name) : Straight name := by
  refine ⟨?_, ?_⟩
  · rw [Path.isAbsolute]
    split
    · rename_i hslash
      exact (h.single (by rw [hslash]; exact List.mem_cons_self)).elim
    · rfl
  · rw [h.parts, List.mem_singleton]
    exact fun he => h.notDots he.symm

@[simp] theorem follow_nil (place : Location) : follow place [] = place := rfl

@[simp] theorem follow_cons (place : Location) (part : String) (parts : List String) :
    follow place (part :: parts) = follow (next place part) parts := rfl

theorem follow_append (place : Location) (a b : List String) :
    follow place (a ++ b) = follow (follow place a) b := List.foldl_append

@[simp] theorem next_empty (place : Location) : next place "" = place := by simp [next]

theorem next_name {name : String} (h : Proper name) (place : Location) :
    next place name = place ++ [name] := by
  simp [next, h.named, h.notDot, h.notDots]

/-- Parts that never go up only add names. -/
theorem follow_onward {parts : List String} (h : ".." ∉ parts) (place : Location) :
    follow place parts = place ++ parts.filter (fun part => part ≠ "" ∧ part ≠ ".") := by
  induction parts generalizing place with
  | nil => simp
  | cons part parts ih =>
    rw [List.mem_cons, not_or] at h
    rw [follow_cons, ih h.2, next]
    by_cases hpart : part = "" ∨ part = "."
    · rw [if_pos hpart,
        List.filter_cons_of_neg (by simpa [Decidable.or_iff_not_imp_left] using hpart)]
    · rw [if_neg hpart, if_neg (fun he => h.1 he.symm),
        List.filter_cons_of_pos (by simpa [not_or] using hpart), List.append_assoc]
      rfl

theorem Straight.follow {path : String} (h : Straight path) (place : Location) :
    follow place (parts path) = place ++ names path := follow_onward h.onward place

theorem parts_empty : parts "" = [""] := rfl

theorem join_empty (path : String) : join "" path = path := by
  rw [join]
  split
  · rfl
  · exact String.empty_append

theorem place_empty (here : Location) : place here "" = here := by
  rw [place, parts_empty]
  exact next_empty here

/-- A path below another one leads on from there. -/
theorem place_join {path : String} (hpath : isAbsolute path = false) (here : Location)
    (base : String) : place here (join base path) = follow (place here base) (parts path) := by
  by_cases hbase : base = ""
  · rw [hbase, join_empty, place_empty, place, Tree.origin, hpath]
    rfl
  · obtain ⟨front, hjoin, hfront⟩ := join_eq hbase hpath
    have horigin : Tree.origin here (join base path) = Tree.origin here base := by
      rw [Tree.origin, isAbsolute_join hbase hpath, Tree.origin]
    rw [place, horigin, place, hjoin, parts_slash, follow_append]
    rcases hfront with rfl | rfl
    · rfl
    · have hslash := parts_slash front ""
      rw [String.append_empty] at hslash
      rw [hslash, parts_empty, follow_append, follow_cons, next_empty, follow_nil]

theorem place_join_name {name : String} (hname : Proper name) (here : Location) (base : String) :
    place here (join base name) = place here base ++ [name] := by
  rw [place_join hname.straight.relative, hname.parts, follow_cons, next_name hname, follow_nil]

theorem parts_join_name {name : String} (hname : Proper name) (base : String) :
    ∃ front, parts (join base name) = front ++ [name] := by
  by_cases hempty : base = ""
  · exact ⟨[], by rw [hempty, join_empty, hname.parts]; rfl⟩
  · obtain ⟨front, hjoin, -⟩ := join_eq hempty hname.straight.relative
    exact ⟨parts front, by rw [hjoin, parts_slash, hname.parts]⟩

/-- A path that never goes up adds its names. -/
theorem place_join_straight {path : String} (h : Straight path) (here : Location) (base : String) :
    place here (join base path) = place here base ++ names path := by
  rw [place_join h.relative, h.follow]

end Path

namespace Tree

variable {t u : Tree} {here place last : Location} {path : String} {parts : List String}

theorem step_eq_next {part : String} (h : t.step place part = .ok last) :
    last = Path.next place part := by
  have hdir := step_eq_ok h
  rw [step, hdir] at h
  rw [Path.next]
  dsimp only at h
  split at h
  · rename_i hstay
    rw [if_pos hstay]
    exact (Except.ok.inj h).symm
  · rename_i hstay
    rw [if_neg hstay]
    split at h
    · rename_i hup
      rw [if_pos hup]
      exact (Except.ok.inj h).symm
    · rename_i hup
      rw [if_neg hup]
      split at h
      · cases h
      · exact (Except.ok.inj h).symm

theorem walk_eq_follow (h : t.walk place parts = .ok last) : last = Path.follow place parts := by
  induction parts generalizing place with
  | nil =>
    cases h
    rfl
  | cons part parts ih =>
    rw [walk] at h
    split at h
    · cases h
    · rename_i next hstep
      rw [Path.follow_cons, ← step_eq_next hstep]
      exact ih h

theorem locate_eq_place (h : t.locate here path = .ok place) : place = Path.place here path :=
  walk_eq_follow (locate_eq_ok h).2

/-! ## Contents -/

/-- What files hold, place by place. -/
abbrev Contents := Location → Option ByteArray

/-- Other contents at one place. -/
def Contents.put (f : Contents) (place : Location) (data : Option ByteArray) : Contents :=
  fun other => if other = place then data else f other

@[simp] theorem Contents.put_self (f : Contents) (place : Location) (data : Option ByteArray) :
    f.put place data place = data := if_pos rfl

theorem Contents.put_of_ne {place other : Location} (h : other ≠ place) (f : Contents)
    (data : Option ByteArray) : f.put place data other = f other := if_neg h

/-- What the files of a tree hold. -/
def content (t : Tree) : Contents := fun place =>
  match t.find? place with
  | some (.file data _) => some data
  | _ => none

theorem content_eq_some {data : ByteArray} :
    t.content place = some data ↔ ∃ executable, t.find? place = some (.file data executable) := by
  rw [content]
  rcases t.find? place with _ | _ | ⟨found, executable⟩ <;> simp

theorem content_of_none (h : t.find? place = none) : t.content place = none := by
  rw [content, h]

theorem content_put_directory (hplace : place ≠ []) (h : t.find? place = none) :
    (t.put place .directory).content = t.content := by
  funext other
  rw [content, find?_put t hplace]
  by_cases hother : other = place
  · rw [if_pos hother, hother, content_of_none h]
  · rw [if_neg hother, content]

theorem content_put_file (hplace : place ≠ []) (data : ByteArray) (executable : Bool) :
    (t.put place (.file data executable)).content = t.content.put place (some data) := by
  funext other
  rw [content, find?_put t hplace, Contents.put]
  by_cases hother : other = place
  · rw [if_pos hother, if_pos hother]
  · rw [if_neg hother, if_neg hother, content]

/-! ## Regular trees -/

/-- Every entry stands in a directory, under a name that is not too long. -/
def Regular (t : Tree) : Prop :=
  ∀ place name, t.find? (place ++ [name]) ≠ none →
    t.find? place = some .directory ∧ name.utf8ByteSize ≤ longestName

/-- Below what is no directory there is nothing. -/
theorem Regular.nothing_below (h : t.Regular) (hnode : t.find? place ≠ some .directory)
    {names : List String} (hnames : names ≠ []) : t.find? (place ++ names) = none := by
  obtain ⟨front, name, rfl⟩ := List.eq_nil_or_concat names |>.resolve_left hnames
  rw [List.concat_eq_append, ← List.append_assoc]
  by_cases hentry : t.find? (place ++ front ++ [name]) = none
  · exact hentry
  · have hdir := (h _ _ hentry).1
    cases front with
    | nil => exact absurd (by simpa using hdir) hnode
    | cons other front =>
      have hnone := h.nothing_below hnode (List.cons_ne_nil other front)
      rw [hnone] at hdir
      cases hdir
termination_by names.length

/-- Below nothing there is nothing. -/
theorem Regular.none_below (h : t.Regular) (hnone : t.find? place = none) (names : List String) :
    t.find? (place ++ names) = none := by
  by_cases hnames : names = []
  · rw [hnames, List.append_nil, hnone]
  · exact h.nothing_below (by simp [hnone]) hnames

theorem Regular.put (h : t.Regular) {name : String} (hdir : t.find? place = some .directory)
    (hname : name.utf8ByteSize ≤ longestName) {node : Node}
    (hnode : t.find? (place ++ [name]) = some .directory → node = .directory) :
    (t.put (place ++ [name]) node).Regular := by
  have hne : place ++ [name] ≠ [] := by simp
  intro parent other hentry
  rw [find?_put t hne] at hentry ⊢
  by_cases hsame : parent ++ [other] = place ++ [name]
  · obtain ⟨rfl, hother⟩ := List.append_inj' hsame rfl
    obtain rfl := (List.cons.inj hother).1
    rw [if_neg (by simp)]
    exact ⟨hdir, hname⟩
  · rw [if_neg hsame] at hentry
    obtain ⟨hparent, hother⟩ := h parent other hentry
    refine ⟨?_, hother⟩
    split
    · rename_i he
      rw [hnode (he ▸ hparent)]
    · exact hparent

/-- Where a walk ends at nothing, it has come from a directory. -/
theorem Regular.parent (h : t.Regular) (hwalk : t.walk place parts = .ok last) (hparts : parts ≠ [])
    (hlast : t.find? last = none) :
    ∃ dir name, last = dir ++ [name] ∧ t.find? dir = some .directory ∧
      name.utf8ByteSize ≤ longestName := by
  obtain ⟨front, part, rfl⟩ := List.eq_nil_or_concat parts |>.resolve_left hparts
  rw [List.concat_eq_append, walk_append] at hwalk
  split at hwalk
  · cases hwalk
  · rename_i dir _
    rw [walk] at hwalk
    split at hwalk
    · cases hwalk
    · rename_i next hstep
      cases hwalk
      have hdir := step_eq_ok hstep
      rw [step, hdir] at hstep
      dsimp only at hstep
      split at hstep
      · cases hstep
        rw [hlast] at hdir
        cases hdir
      · split at hstep
        · -- Above a directory there is another one, or it is the root itself.
          cases hstep
          rcases List.eq_nil_or_concat dir with rfl | ⟨above, name, rfl⟩
          · cases hlast
          · rw [List.concat_eq_append] at hdir hlast
            rw [List.dropLast_concat, (h above name (by simp [hdir])).1] at hlast
            cases hlast
        · split at hstep
          · cases hstep
          · rename_i hshort
            cases hstep
            exact ⟨dir, part, rfl, hdir, Nat.not_lt.1 hshort⟩

/-! ## Changes -/

/-- Making directories changes no file. -/
theorem makeWalk_keeps (h : t.Regular) (made : Bool) (place : Location) (parts : List String) :
    (t.makeWalk made place parts).2.Regular ∧
      (t.makeWalk made place parts).2.content = t.content := by
  induction parts generalizing t made place with
  | nil => exact ⟨h, rfl⟩
  | cons part parts ih =>
    rw [makeWalk]
    split
    · exact ⟨h, rfl⟩
    · rename_i next hstep
      split
      · rename_i hnone
        have hwalk : t.walk place [part] = .ok next := by
          rw [walk, hstep]
          rfl
        obtain ⟨dir, name, rfl, hdir, hname⟩ := h.parent hwalk (List.cons_ne_nil _ _) hnone
        have hput : (t.put (dir ++ [name]) .directory).Regular := h.put hdir hname fun _ => rfl
        obtain ⟨hregular, hcontent⟩ := ih hput true (dir ++ [name])
        exact ⟨hregular, hcontent.trans (content_put_directory (by simp) hnone)⟩
      · exact ih h made next
      · exact ⟨h, rfl⟩

theorem makeDirectories_keeps (h : t.Regular) (here : Location) (path : String) :
    (t.makeDirectories here path).2.Regular ∧
      (t.makeDirectories here path).2.content = t.content := by
  rw [makeDirectories]
  split
  · exact ⟨h, rfl⟩
  · split
    · exact ⟨h, rfl⟩
    · exact makeWalk_keeps h _ _ _

/-- Writing a file changes what is at its place. -/
theorem write_keeps (h : t.Regular) {data : ByteArray} (hwrite : t.write here path data = .ok u) :
    refuse? path = none ∧ u.Regular ∧
      u.content = t.content.put (Path.place here path) (some data) := by
  obtain ⟨place, hlocate, hnode, rfl⟩ := write_eq_ok.1 hwrite
  obtain ⟨hrefuse, hwalk⟩ := locate_eq_ok hlocate
  rw [← locate_eq_place hlocate]
  -- A new file comes into a directory, and an old one is in one already.
  obtain ⟨dir, name, rfl, hdir, hname⟩ : ∃ dir name, place = dir ++ [name] ∧
      t.find? dir = some .directory ∧ name.utf8ByteSize ≤ longestName := by
    by_cases hnone : t.find? place = none
    · exact h.parent hwalk (Path.parts_ne_nil path) hnone
    · obtain ⟨dir, name, rfl⟩ :=
        List.eq_nil_or_concat place |>.resolve_left (ne_nil_of_find? hnode)
      rw [List.concat_eq_append] at hnone ⊢
      exact ⟨dir, name, rfl, h dir name hnone⟩
  exact ⟨hrefuse, h.put hdir hname fun hfound => absurd hfound hnode,
    content_put_file (by simp) data _⟩

theorem Regular.remove (h : t.Regular) (hplace : place ≠ []) : (t.remove place).Regular := by
  intro parent name hentry
  rw [find?_remove t hplace] at hentry ⊢
  split at hentry
  · exact absurd rfl hentry
  · rename_i hbelow
    rw [if_neg]
    · exact h parent name hentry
    · rw [List.isPrefixOf_iff_prefix] at hbelow ⊢
      exact fun hparent => hbelow (hparent.trans (List.prefix_append _ _))

/-- Removing a file leaves nothing at its place. -/
theorem removeFile_keeps (h : t.Regular) (hremove : t.removeFile here path = .ok u) :
    u.Regular ∧ u.content = t.content.put (Path.place here path) none := by
  obtain ⟨place, data, executable, hlocate, hfile, rfl⟩ := removeFile_eq_ok.1 hremove
  rw [← locate_eq_place hlocate]
  have hnode : t.find? place ≠ some .directory := by simp [hfile]
  have hne := ne_nil_of_find? hnode
  refine ⟨h.remove hne, ?_⟩
  funext other
  rw [content, find?_remove t hne, Contents.put]
  by_cases hsame : other = place
  · simp [hsame]
  · rw [if_neg hsame]
    by_cases hbelow : place.isPrefixOf other = true
    · obtain ⟨names, rfl⟩ := List.isPrefixOf_iff_prefix.1 hbelow
      rw [if_pos hbelow, content_of_none (h.nothing_below hnode (by simpa using hsame))]
    · rw [if_neg hbelow, content]

/-! ## Reading -/

/-- What is seen under a path is what is at its place. -/
theorem find?_of_look {node : Node} (h : t.look here path = .ok node) :
    t.find? (Path.place here path) = some node := by
  obtain ⟨place, hlocate, hnode⟩ := look_eq_ok.1 h
  rwa [← locate_eq_place hlocate]

theorem readBytes_eq_ok {data : ByteArray} :
    t.readBytes here path = .ok data ↔
      ∃ executable, t.look here path = .ok (.file data executable) := by
  rw [readBytes]
  cases t.look here path with
  | error fault => simp
  | ok node => cases node <;> simp

theorem readText_eq_ok {text : String} :
    t.readText here path = .ok text ↔
      ∃ data executable, t.look here path = .ok (.file data executable) ∧
        String.fromUTF8? data = some text := by
  rw [readText, readBytes]
  cases t.look here path with
  | error fault => simp
  | ok node =>
    cases node with
    | directory => simp
    | file data executable => cases h : String.fromUTF8? data <;> simp [h]

theorem readBytes_content {data : ByteArray} (h : t.readBytes here path = .ok data) :
    t.content (Path.place here path) = some data := by
  obtain ⟨executable, hlook⟩ := readBytes_eq_ok.1 h
  exact content_eq_some.2 ⟨executable, find?_of_look hlook⟩

theorem readText_content {text : String} (h : t.readText here path = .ok text) :
    ∃ data, t.content (Path.place here path) = some data ∧ String.fromUTF8? data = some text := by
  obtain ⟨data, executable, hlook, htext⟩ := readText_eq_ok.1 h
  exact ⟨data, content_eq_some.2 ⟨executable, find?_of_look hlook⟩, htext⟩

/-- A file that was written is found under the path it was written under. -/
theorem readBytes_of_write {data : ByteArray} (h : t.write here path data = .ok u) :
    u.readBytes here path = .ok data := by
  obtain ⟨place, hlocate, hnode, rfl⟩ := write_eq_ok.1 h
  have hne := ne_nil_of_find? hnode
  -- The way to the file leads along directories, and those stay as they are.
  have hlocate' := locate_mono (u := t.put place (.file data (executable (t.find? place))))
    (fun other hdir => by
      rwa [find?_put_of_ne hne]
      rintro rfl
      exact hnode hdir) hlocate
  rw [readBytes, look_of_locate hlocate', find?_put_self hne]

/-- A path that goes up only from directories that are there. -/
def Steady (t : Tree) (here : Location) (path : String) : Prop :=
  ∃ lead rest place, Path.parts path = lead ++ rest ∧ t.walk (origin here path) lead = .ok place ∧
    ".." ∉ rest

theorem Steady.join {base : String} (h : t.Steady here base) (hpath : Path.Straight path) :
    t.Steady here (Path.join base path) := by
  by_cases hbase : base = ""
  · rw [hbase, Path.join_empty]
    exact ⟨[], Path.parts path, _, rfl, rfl, hpath.onward⟩
  · obtain ⟨lead, rest, place, hparts, hwalk, hrest⟩ := h
    obtain ⟨front, hjoin, hfront⟩ := Path.join_eq hbase hpath.relative
    have horigin : origin here (Path.join base path) = origin here base := by
      rw [origin, Path.isAbsolute_join hbase hpath.relative, origin]
    rw [Steady, horigin, hjoin, Path.parts_slash]
    rcases List.eq_nil_or_concat rest with rfl | ⟨rest, part, rfl⟩
    · rw [List.append_nil] at hparts
      rw [← hparts] at hwalk
      exact ⟨_, _, _, rfl, walk_front hwalk hfront, hpath.onward⟩
    · rw [List.concat_eq_append, List.mem_append, not_or] at hrest
      rcases hfront with rfl | rfl
      · refine ⟨lead, rest ++ [part] ++ Path.parts path, place, ?_, hwalk, ?_⟩
        · rw [hparts, List.concat_eq_append, List.append_assoc, List.append_assoc]
        · simp only [List.mem_append, not_or]
          exact ⟨hrest, hpath.onward⟩
      · have hslash := Path.parts_slash front ""
        rw [String.append_empty, Path.parts_empty] at hslash
        rw [hslash, List.concat_eq_append, ← List.append_assoc] at hparts
        refine ⟨lead, rest ++ Path.parts path, place, ?_, hwalk, ?_⟩
        · rw [(List.append_inj' hparts rfl).1, List.append_assoc]
        · simp only [List.mem_append, not_or]
          exact ⟨hrest.1, hpath.onward⟩

/-- A path below which something is found goes up only from directories that are there. -/
theorem steady_of_look {base name : String} {node : Node} (hname : Path.Proper name)
    (h : t.look here (Path.join base name) = .ok node) : t.Steady here base := by
  by_cases hbase : base = ""
  · rw [hbase, Steady, Path.parts_empty]
    exact ⟨[], [""], _, rfl, rfl, by decide⟩
  · obtain ⟨place, hlocate, -⟩ := look_eq_ok.1 h
    obtain ⟨front, hjoin, hfront⟩ := Path.join_eq hbase hname.straight.relative
    have hwalk := (locate_eq_ok hlocate).2
    rw [Path.isAbsolute_join hbase hname.straight.relative, hjoin, Path.parts_slash,
      walk_append] at hwalk
    split at hwalk
    · cases hwalk
    · rename_i mid hmid
      rcases hfront with hfront | hfront
      · exact ⟨Path.parts front, [], mid, by rw [hfront, List.append_nil], hmid, by simp⟩
      · refine ⟨Path.parts front, [""], mid, ?_, hmid, by decide⟩
        have hslash := Path.parts_slash front ""
        rwa [String.append_empty, ← hfront] at hslash

/-- Onward from what is no directory there is nothing. -/
theorem Regular.nothing_onward (h : t.Regular) {name : String} (hname : Path.Proper name)
    (hparts : ".." ∉ parts) (hdir : t.find? place ≠ some .directory) :
    t.find? (Path.follow place (parts ++ [name])) = none := by
  rw [Path.follow_append, Path.follow_onward hparts, Path.follow_cons, Path.next_name hname,
    Path.follow_nil, List.append_assoc]
  exact h.nothing_below hdir (by simp)

/-- There is no entry with a name that is too long. -/
theorem Regular.nothing_long (h : t.Regular) {name : String}
    (hlong : longestName < name.utf8ByteSize) : t.find? (place ++ [name]) = none :=
  Classical.byContradiction fun hentry => Nat.not_le.2 hlong (h place name hentry).2

/-- A walk onward that does not arrive would have arrived at nothing. -/
theorem Regular.nothing_ahead (h : t.Regular) {name : String} (hname : Path.Proper name)
    (hparts : ".." ∉ parts) {fault : Fault} (hwalk : t.walk place (parts ++ [name]) = .error fault) :
    t.find? (Path.follow place (parts ++ [name])) = none := by
  induction parts generalizing place with
  | nil =>
    by_cases hdir : t.find? place = some .directory
    · by_cases hshort : name.utf8ByteSize ≤ longestName
      · rw [List.nil_append, walk,
          step_name hdir hname.named hname.notDot hname.notDots hshort] at hwalk
        cases hwalk
      · rw [List.nil_append, Path.follow_cons, Path.next_name hname, Path.follow_nil]
        exact h.nothing_long (Nat.not_le.1 hshort)
    · exact h.nothing_onward hname hparts hdir
  | cons part parts ih =>
    have honward := hparts
    rw [List.mem_cons, not_or] at honward
    by_cases hdir : t.find? place = some .directory
    · rw [List.cons_append, walk] at hwalk
      split at hwalk
      · -- Only a name that is too long stops a step from a directory.
        rename_i hstep
        rw [step, hdir] at hstep
        dsimp only at hstep
        split at hstep
        · cases hstep
        · split at hstep
          · cases hstep
          · split at hstep
            · rename_i hempty hdots hlong
              rw [List.cons_append, Path.follow_cons, Path.next, if_neg hempty, if_neg hdots]
              exact h.nothing_onward hname honward.2 (by simp [h.nothing_long hlong])
            · cases hstep
      · rename_i next hstep
        rw [List.cons_append, Path.follow_cons, ← step_eq_next hstep]
        exact ih honward.2 hwalk
    · exact h.nothing_onward hname hparts hdir

/-- What a path does not lead to is not there. -/
theorem content_of_not_leads (h : t.Regular) {base name : String} (hbase : t.Steady here base)
    (hname : Path.Proper name) (hrefuse : refuse? (Path.join base name) = none)
    (hleads : t.leads here (Path.join base name) = false) :
    t.content (Path.place here (Path.join base name)) = none := by
  obtain ⟨lead, rest, mid, hparts, hwalk, hrest⟩ := hbase.join hname.straight
  rw [leads, look] at hleads
  cases hlocate : t.locate here (Path.join base name) with
  | ok place =>
    simp only [hlocate] at hleads
    rw [← locate_eq_place hlocate]
    cases hnode : t.find? place with
    | none => exact content_of_none hnode
    | some node => simp [hnode] at hleads
  | error fault =>
    have hlocate' : t.walk mid rest = .error fault := by
      rw [locate, hrefuse] at hlocate
      rw [origin] at hwalk
      rw [hparts, walk_append] at hlocate
      simpa only [hwalk] using hlocate
    obtain ⟨front, hfront⟩ := Path.parts_join_name hname base
    have hne : rest ≠ [] := by
      rintro rfl
      cases hlocate'
    obtain ⟨before, part, rfl⟩ := List.eq_nil_or_concat rest |>.resolve_left hne
    rw [List.concat_eq_append] at hparts hrest hlocate'
    rw [hfront, ← List.append_assoc] at hparts
    obtain rfl : name = part := by simpa using (List.append_inj' hparts rfl).2
    rw [List.mem_append, not_or] at hrest
    apply content_of_none
    rw [Path.place, hfront, hparts, List.append_assoc, Path.follow_append, ← walk_eq_follow hwalk]
    exact h.nothing_ahead hname hrest.1 hlocate'

end Tree
end Disk
end TrustTrial
