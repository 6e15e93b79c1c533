import TrustTrial.Proofs.Contents

/-!
# TrustTrial.Proofs.Ways

Where a path leads on a tree of any shape. A `Way` cuts a path in three: a lead that ends at a
directory, folders that never go up and need not be there, and a name. On a regular tree the path
leads to something if and only if there is something at the end of its way, and to write there is to
make the folders first.
-/

namespace TrustTrial
namespace Disk
namespace Tree

/-- The names among the parts of a path. -/
def named (parts : List String) : List String :=
  parts.filter (fun part => part ≠ "" ∧ part ≠ ".")

theorem named_append (a b : List String) : named (a ++ b) = named a ++ named b := List.filter_append _ _

theorem named_cons_of_stay {part : String} (h : part = "" ∨ part = ".") (parts : List String) :
    named (part :: parts) = named parts :=
  List.filter_cons_of_neg (by simpa [Decidable.or_iff_not_imp_left] using h)

theorem named_cons {part : String} (h : ¬(part = "" ∨ part = ".")) (parts : List String) :
    named (part :: parts) = part :: named parts :=
  List.filter_cons_of_pos (by simpa [not_or] using h)

/-- A path in three pieces. -/
structure Way (path : String) where
  lead : List String
  front : List String
  name : String
  parts : Path.parts path = lead ++ front ++ [name]
  onward : ".." ∉ front
  proper : Path.Proper name

namespace Way

variable {t u : Tree} {here mid place : Location} {path : String} {w : Way path}

def folders (w : Way path) : List String := named w.front

/-- A way whose lead ends at a directory. -/
structure Starts (w : Way path) (t : Tree) (here mid : Location) : Prop where
  walk : t.walk (origin here path) w.lead = .ok mid
  directory : t.find? mid = some .directory

theorem Starts.mono (h : w.Starts t here mid)
    (hkeep : ∀ place, t.find? place = some .directory → u.find? place = some .directory) :
    w.Starts u here mid :=
  ⟨walk_mono hkeep h.walk, hkeep mid h.directory⟩

theorem Starts.place_eq (h : w.Starts t here mid) :
    Path.place here path = mid ++ w.folders ++ [w.name] := by
  rw [Path.place, w.parts, Path.follow_append, Path.follow_append, ← walk_eq_follow h.walk,
    Path.follow_onward w.onward, Path.follow_cons, Path.next_name w.proper, Path.follow_nil]
  rfl

theorem proper_of_mem_folders (w : Way path) {folder : String} (h : folder ∈ w.folders) :
    folder ≠ "" ∧ folder ≠ "." ∧ folder ≠ ".." := by
  obtain ⟨hmem, hnamed⟩ := List.mem_filter.1 h
  rw [decide_eq_true_iff] at hnamed
  exact ⟨hnamed.1, hnamed.2, fun he => w.onward (he ▸ hmem)⟩

end Way

section Ways

variable {t u : Tree} {here mid place : Location} {path : String} {w : Way path}

theorem find?_origin (h : t.find? here = some .directory) (path : String) :
    t.find? (origin here path) = some .directory := by
  rw [origin]
  split
  · rfl
  · exact h

/-- Above a directory there are directories. -/
theorem Regular.dropLast (ht : t.Regular) (h : t.find? place = some .directory) :
    t.find? place.dropLast = some .directory := by
  rcases List.eq_nil_or_concat place with rfl | ⟨above, name, rfl⟩
  · rfl
  · rw [List.concat_eq_append] at h ⊢
    rw [List.dropLast_concat]
    exact (ht above name (by simp [h])).1

/-- Whatever a walk does, a part of it that never goes up can be put off until there is a directory. -/
theorem walk_from_directory (ht : t.Regular) (hstart : t.find? place = some .directory)
    {lead rest : List String} {last : Location} (hwalk : t.walk place lead = .ok last)
    (hrest : ".." ∉ rest) : ∃ lead' rest' mid, lead ++ rest = lead' ++ rest' ∧
      t.walk place lead' = .ok mid ∧ t.find? mid = some .directory ∧ ".." ∉ rest' ∧
        rest.length ≤ rest'.length := by
  rcases List.eq_nil_or_concat lead with rfl | ⟨front, part, rfl⟩
  · cases hwalk
    exact ⟨[], rest, place, rfl, rfl, hstart, hrest, Nat.le_refl _⟩
  · rw [List.concat_eq_append] at hwalk ⊢
    have hfront := hwalk
    rw [walk_append] at hfront
    split at hfront
    · cases hfront
    · rename_i dir hdir
      rw [walk] at hfront
      split at hfront
      · cases hfront
      · rename_i next hstep
        cases hfront
        have hmid := step_eq_ok hstep
        by_cases hup : part = ".."
        · subst hup
          refine ⟨front ++ [".."], rest, last, rfl, hwalk, ?_, hrest, Nat.le_refl _⟩
          rw [step_eq_next hstep]
          exact ht.dropLast hmid
        · refine ⟨front, part :: rest, dir, by simp, hdir, hmid, ?_, by simp⟩
          rw [List.mem_cons, not_or]
          exact ⟨Ne.symm hup, hrest⟩

/-- A path that goes up only from directories that are there has a way, if it ends in a name. -/
theorem Steady.way (ht : t.Regular) (hhere : t.find? here = some .directory)
    (h : t.Steady here path) {front : List String} {name : String}
    (hparts : Path.parts path = front ++ [name]) (hname : Path.Proper name) :
    ∃ (w : Way path) (mid : Location), w.name = name ∧ w.Starts t here mid := by
  obtain ⟨lead, rest, place, hall, hwalk, hrest⟩ := h
  have hlast : ∃ lead rest place, Path.parts path = lead ++ rest ∧ rest ≠ [] ∧
      t.walk (origin here path) lead = .ok place ∧ ".." ∉ rest := by
    rcases List.eq_nil_or_concat rest with rfl | ⟨before, part, rfl⟩
    · rw [List.append_nil, hparts] at hall
      rw [← hall, walk_append] at hwalk
      split at hwalk
      · cases hwalk
      · rename_i dir hdir
        refine ⟨front, [name], dir, hparts, List.cons_ne_nil _ _, hdir, ?_⟩
        rw [List.mem_singleton]
        exact fun he => hname.notDots he.symm
    · exact ⟨lead, _, place, hall, by simp, hwalk, hrest⟩
  obtain ⟨lead, rest, place, hall, hne, hwalk, hrest⟩ := hlast
  obtain ⟨lead', rest', mid, hsplit, hwalk', hmid, hrest', hlength⟩ :=
    walk_from_directory ht (find?_origin hhere path) hwalk hrest
  have hne' : rest' ≠ [] := by
    rintro rfl
    exact hne (List.length_eq_zero_iff.1 (Nat.le_zero.1 hlength))
  obtain ⟨before, part, rfl⟩ := List.eq_nil_or_concat rest' |>.resolve_left hne'
  rw [List.concat_eq_append] at hsplit hrest'
  rw [hsplit, ← List.append_assoc] at hall
  obtain ⟨-, hlast⟩ := List.append_inj' (hparts.symm.trans hall) rfl
  obtain rfl := (List.cons.inj hlast).1
  rw [List.mem_append, not_or] at hrest'
  exact ⟨⟨lead', before, name, hall, hrest'.1, hname⟩, mid, rfl, hwalk', hmid⟩

/-- A path that has a way. -/
def Reaches (t : Tree) (here : Location) (path : String) : Prop :=
  ∃ (w : Way path) (mid : Location), w.Starts t here mid

theorem Reaches.mono (h : t.Reaches here path)
    (hkeep : ∀ place, t.find? place = some .directory → u.find? place = some .directory) :
    u.Reaches here path := by
  obtain ⟨w, mid, hw⟩ := h
  exact ⟨w, mid, hw.mono hkeep⟩

/-- A name below a path that goes up only from directories that are there. -/
theorem Steady.reaches (ht : t.Regular) (hhere : t.find? here = some .directory) {base name : String}
    (h : t.Steady here base) (hname : Path.Proper name) : t.Reaches here (Path.join base name) := by
  obtain ⟨front, hparts⟩ := Path.parts_join_name hname base
  obtain ⟨w, mid, -, hw⟩ := (h.join hname.straight).way ht hhere hparts hname
  exact ⟨w, mid, hw⟩

theorem step_eq (hdir : t.find? place = some .directory) {name : String}
    (hname : name ≠ "" ∧ name ≠ "." ∧ name ≠ "..") : t.step place name =
      if longestName < name.utf8ByteSize then .error .nameTooLong else .ok (place ++ [name]) := by
  rw [step, hdir]
  dsimp only
  rw [if_neg (not_or.2 ⟨hname.1, hname.2.1⟩), if_neg hname.2.2]

/-! ## Looking -/

/-- A walk through folders that are all there. -/
theorem walk_folders (ht : t.Regular) {front : List String} {name : String} (honward : ".." ∉ front)
    (hname : Path.Proper name)
    (hdirs : ∀ a, a <+: named front → t.find? (mid ++ a) = some .directory) :
    t.walk mid (front ++ [name]) =
      if longestName < name.utf8ByteSize then .error .nameTooLong
      else .ok (mid ++ named front ++ [name]) := by
  induction front generalizing mid with
  | nil =>
    have hmid := hdirs [] List.prefix_rfl
    rw [List.append_nil] at hmid
    rw [List.nil_append, walk, step_eq hmid ⟨hname.named, hname.notDot, hname.notDots⟩]
    by_cases hlong : longestName < name.utf8ByteSize
    · rw [if_pos hlong, if_pos hlong]
    · rw [if_neg hlong, if_neg hlong]
      simp [walk, named]
  | cons part front ih =>
    rw [List.mem_cons, not_or] at honward
    have hmid := hdirs [] (List.nil_prefix)
    rw [List.append_nil] at hmid
    rw [List.cons_append, walk]
    by_cases hstay : part = "" ∨ part = "."
    · rw [named_cons_of_stay hstay] at hdirs ⊢
      simp only [step, hmid, if_pos hstay]
      exact ih honward.2 hdirs
    · rw [named_cons hstay] at hdirs ⊢
      have hnext := hdirs [part] (by simp)
      have hshort := (ht mid part (by simp [hnext])).2
      have hstep := step_name hmid (not_or.1 hstay).1 (not_or.1 hstay).2 (Ne.symm honward.1) hshort
      rw [hstep]
      have hrest := ih honward.2 fun a ha => (by
        simpa using hdirs (part :: a) (List.cons_prefix_cons.2 ⟨rfl, ha⟩) :
          t.find? (mid ++ [part] ++ a) = some .directory)
      simpa using hrest

theorem Way.Starts.locate (h : w.Starts t here mid) (ht : t.Regular)
    (hdirs : ∀ a, a <+: w.folders → t.find? (mid ++ a) = some .directory) :
    t.locate here path = match refuse? path with
      | some fault => .error fault
      | none =>
        if longestName < w.name.utf8ByteSize then .error .nameTooLong
        else .ok (mid ++ w.folders ++ [w.name]) := by
  have hwalk := h.walk
  rw [origin] at hwalk
  rw [Tree.locate, w.parts, List.append_assoc, walk_append]
  simp only [hwalk]
  rw [walk_folders ht w.onward w.proper hdirs]
  rfl

/-- On a regular tree there is nothing but directories on the way to something. -/
theorem Regular.directories (ht : t.Regular) {place : Location} {names : List String}
    (h : t.find? (place ++ names) ≠ none) {a : List String} (ha : a <+: names) (hne : a ≠ names) :
    t.find? (place ++ a) = some .directory := by
  obtain ⟨rest, rfl⟩ := ha
  have hrest : rest ≠ [] := fun he => hne (by rw [he, List.append_nil])
  refine Classical.byContradiction fun hdir => h ?_
  rw [← List.append_assoc]
  exact ht.nothing_below hdir hrest

/-- A path leads to what is at the end of its way. -/
theorem Way.Starts.look (h : w.Starts t here mid) (ht : t.Regular) {node : Node} :
    t.look here path = .ok node ↔
      refuse? path = none ∧ t.find? (mid ++ w.folders ++ [w.name]) = some node := by
  rw [← h.place_eq]
  constructor
  · intro hlook
    obtain ⟨place, hlocate, -⟩ := look_eq_ok.1 hlook
    exact ⟨(locate_eq_ok hlocate).1, find?_of_look hlook⟩
  · rintro ⟨hrefuse, hnode⟩
    have hnode' := hnode
    rw [h.place_eq] at hnode'
    have hthere : t.find? (mid ++ w.folders ++ [w.name]) ≠ none :=
      Option.ne_none_iff_exists'.2 ⟨node, hnode'⟩
    have hdirs : ∀ a, a <+: w.folders → t.find? (mid ++ a) = some .directory := by
      intro a ha
      rw [List.append_assoc] at hthere
      refine ht.directories hthere (ha.trans (List.prefix_append _ _)) ?_
      rintro rfl
      have hle := ha.length_le
      rw [List.length_append, List.length_singleton] at hle
      omega
    have hshort : ¬longestName < w.name.utf8ByteSize := Nat.not_lt.2 (ht _ _ hthere).2
    have hlocate := h.locate ht hdirs
    rw [hrefuse] at hlocate
    dsimp only at hlocate
    rw [if_neg hshort] at hlocate
    rw [look_of_locate hlocate, hnode']

theorem Reaches.look_iff (h : t.Reaches here path) (ht : t.Regular) {node : Node} :
    t.look here path = .ok node ↔
      refuse? path = none ∧ t.find? (Path.place here path) = some node := by
  obtain ⟨w, mid, hw⟩ := h
  rw [hw.look ht, hw.place_eq]

theorem leads_iff : t.leads here path = true ↔ ∃ node, t.look here path = .ok node := by
  rw [leads]
  cases t.look here path <;> simp

/-! ## Making folders -/

/-- Why the folders of a path are not even begun with. -/
def stop? (path : String) : Option Fault :=
  if Path.names (Path.parent path) = [] then none else refuse? (Path.parent path)

theorem Way.Starts.makeDirectories (h : w.Starts t here mid) :
    t.makeDirectories here (Path.parent path) = match stop? path with
      | some fault => (some fault, t)
      | none => t.makeWalk false mid w.folders := by
  have hmake := makeWalk_of_walk false h.walk h.directory w.folders
  by_cases hempty : w.lead ++ w.front = []
  · have hfront := (List.append_eq_nil_iff.1 hempty).2
    have hparent : Path.parent path = "" := by
      rw [Path.parent, w.parts, hempty]
      rfl
    rw [Tree.makeDirectories, stop?, hparent, Way.folders, hfront]
    rfl
  · obtain ⟨hparent, hpath⟩ := Path.parent_eq w.parts hempty w.proper.parts
    have hnames : Path.names (Path.parent path) = named w.lead ++ w.folders := by
      rw [Path.names, hparent]
      exact named_append _ _
    change t.makeWalk false (origin here path) (named w.lead ++ w.folders) = _ at hmake
    rw [Tree.makeDirectories, stop?, ← hmake, hnames]
    cases hcases : named w.lead ++ w.folders with
    | nil => rfl
    | cons part parts =>
      have hsome : Path.parent path ≠ "" := by
        intro he
        rw [he, hcases] at hnames
        cases hnames
      have horigin : origin here (Path.parent path) = origin here path := by
        rw [origin, origin]
        conv => rhs; rw [hpath, String.append_assoc, Path.isAbsolute_append hsome]
      rw [if_neg (List.cons_ne_nil part parts), ← horigin]
      rfl

/-- Directories stay where they are. -/
theorem makeWalk_mono (made : Bool) (place : Location) (parts : List String) {other : Location}
    (h : t.find? other = some .directory) :
    (t.makeWalk made place parts).2.find? other = some .directory := by
  induction parts generalizing t made place with
  | nil => exact h
  | cons part parts ih =>
    rw [makeWalk]
    split
    · exact h
    · rename_i next hstep
      split
      · rename_i hnone
        refine ih true next ?_
        have hnode : t.find? next ≠ some .directory := by simp [hnone]
        rw [find?_put t (ne_nil_of_find? hnode)]
        split
        · rfl
        · exact h
      · exact ih made next h
      · exact h

/-- If nothing goes wrong, all the folders are there at the end. -/
theorem makeWalk_directories {names : List String} {made : Bool}
    (hnames : ∀ name ∈ names, name ≠ "" ∧ name ≠ "." ∧ name ≠ "..")
    (hdir : t.find? place = some .directory) (hmake : t.makeWalk made place names = (none, u))
    {a : List String} (ha : a <+: names) : u.find? (place ++ a) = some .directory := by
  induction names generalizing t made place a with
  | nil =>
    cases hmake
    rw [List.prefix_nil.1 ha, List.append_nil]
    exact hdir
  | cons name names ih =>
    obtain ⟨hname, hrest⟩ := List.forall_mem_cons.1 hnames
    have hkept : u.find? place = some .directory := by
      have hmono := makeWalk_mono made place (name :: names) hdir
      rwa [hmake] at hmono
    cases a with
    | nil =>
      rw [List.append_nil]
      exact hkept
    | cons other a =>
      obtain ⟨rfl, hfront⟩ := List.cons_prefix_cons.1 ha
      rw [makeWalk] at hmake
      split at hmake
      · cases hmake
      · rename_i next hstep
        obtain rfl : next = place ++ [other] := by
          rw [step_eq_next hstep, Path.next, if_neg (not_or.2 ⟨hname.1, hname.2.1⟩),
            if_neg hname.2.2]
        split at hmake
        · rename_i hnone
          have hput := find?_put t (show place ++ [other] ≠ [] by simp) .directory
          simpa using ih hrest (by rw [hput, if_pos rfl]) hmake hfront
        · rename_i hnext
          simpa using ih hrest hnext hmake hfront
        · cases hmake

end Ways

end Tree
end Disk
end TrustTrial
