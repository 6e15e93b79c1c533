import TrustTrial.Proofs.Ways

/-!
# TrustTrial.Proofs.Beside

A tree with and without what somebody else has done on it. Somebody else's `Plot` are the places of
their own and those that they share with others, which always hold something valid. `Beside` says of
two trees that they differ in nothing but the plot and in directories on the way to it. It is kept by
what is done on the plot of the one tree, and by what is done away from the plot on both; and who stays
away from the plot does not see a difference.
-/

namespace TrustTrial
namespace Disk
namespace Tree

/-- What somebody uses of a tree. -/
structure Plot where
  own : Location → Prop
  shared : Location → Prop
  valid : Option Node → Prop
  not_directory : ¬valid (some .directory)
  disjoint : ∀ a, own a → ¬shared a
  shared_end : ∀ a b, shared a → own b ∨ shared b → a <+: b → a = b

namespace Plot

variable {p : Plot} {place other : Location} {a b c : Option Node}

def Has (p : Plot) (place : Location) : Prop := p.own place ∨ p.shared place

/-- A place that others may use: it is not above or below the plot, and on it only if it is shared. -/
structure Open (p : Plot) (place : Location) : Prop where
  not_own : ¬p.own place
  apart : ∀ q, p.Has q → q <+: place ∨ place <+: q → q = place

/-- The way to an open place is off the plot. -/
theorem Open.above (h : p.Open place) (habove : other <+: place) (hne : other ≠ place) :
    ¬p.Has other := fun hother => hne (h.apart other hother (.inl habove))

theorem Open.not_has (h : p.Open place) (hshared : ¬p.shared place) : ¬p.Has place :=
  not_or.2 ⟨h.not_own, hshared⟩

/-- What may be at a place of a tree if the other tree has something else there. -/
structure Alike (p : Plot) (place : Location) (a b : Option Node) : Prop where
  directory : b = some .directory → a = some .directory
  elsewhere : ¬p.Has place →
    a = b ∨ b = none ∧ a = some .directory ∧ ∃ q, p.Has q ∧ place <+: q
  shared : p.shared place → a = b ∨ p.valid a ∧ p.valid b

theorem Alike.refl (p : Plot) (place : Location) (a : Option Node) : p.Alike place a a :=
  ⟨id, fun _ => .inl rfl, fun _ => .inl rfl⟩

theorem Alike.trans (h : p.Alike place a b) (h' : p.Alike place b c) : p.Alike place a c := by
  refine ⟨fun hc => h.directory (h'.directory hc), fun hplace => ?_, fun hplace => ?_⟩
  · rcases h.elsewhere hplace with rfl | ⟨rfl, hdir, hq⟩
    · exact h'.elsewhere hplace
    · rcases h'.elsewhere hplace with rfl | ⟨-, hdir', -⟩
      · exact .inr ⟨rfl, hdir, hq⟩
      · cases hdir'
  · rcases h.shared hplace with rfl | ⟨ha, hb⟩
    · exact h'.shared hplace
    · rcases h'.shared hplace with rfl | ⟨-, hc⟩
      · exact .inr ⟨ha, hb⟩
      · exact .inr ⟨ha, hc⟩

/-- At a place that is open and not shared there is the same. -/
theorem Alike.same (h : p.Alike place a b) (hopen : p.Open place) (hshared : ¬p.shared place) :
    a = b := by
  rcases h.elsewhere (hopen.not_has hshared) with he | ⟨-, -, q, hq, habove⟩
  · exact he
  · exact absurd (hopen.apart q hq (.inr habove) ▸ hq) (hopen.not_has hshared)

/-- A directory on the way to the plot. -/
theorem alike_above {q : Location} (hq : p.Has q) (habove : place <+: q) (hne : place ≠ q) :
    p.Alike place (some .directory) none :=
  ⟨fun hdir => absurd hdir (by simp), fun _ => .inr ⟨rfl, rfl, q, hq, habove⟩,
    fun hshared => absurd (p.shared_end place q hshared hq habove) hne⟩

/-- Something else at a place of the plot's own. -/
theorem alike_own (hplace : p.own place) (hb : b ≠ some .directory) (a : Option Node) :
    p.Alike place a b :=
  ⟨fun hdir => absurd hdir hb, fun hnot => absurd (.inl hplace) hnot,
    fun hshared => absurd hshared (p.disjoint place hplace)⟩

/-- Something else at a place that is shared. -/
theorem alike_shared (hplace : p.shared place) (ha : p.valid a) (hb : p.valid b) :
    p.Alike place a b :=
  ⟨fun hdir => absurd (hdir ▸ hb) p.not_directory, fun hnot => absurd (.inr hplace) hnot,
    fun _ => .inr ⟨ha, hb⟩⟩

end Plot

/-- The first tree is the second one, but for a plot and the directories that lead there. -/
def Beside (p : Plot) (t u : Tree) : Prop := ∀ place, p.Alike place (t.find? place) (u.find? place)

section Beside

variable {p : Plot} {s t t' u u' : Tree} {here mid place other : Location} {path : String}
  {w : Way path}

theorem Beside.refl (p : Plot) (t : Tree) : Beside p t t := fun place => .refl p place _

theorem Beside.trans (h : Beside p s t) (h' : Beside p t u) : Beside p s u :=
  fun place => (h place).trans (h' place)

theorem Beside.directories (h : Beside p t u) (hplace : u.find? place = some .directory) :
    t.find? place = some .directory := (h place).directory hplace

/-- Off the plot, what the one tree has the other one has too. -/
theorem Beside.find?_eq (h : Beside p t u) (hoff : ¬p.Has place) {node : Node}
    (hnode : u.find? place = some node) : t.find? place = some node := by
  rcases (h place).elsewhere hoff with he | ⟨hnone, -⟩
  · exact he.trans hnode
  · rw [hnone] at hnode
    cases hnode

/-- Off the plot, what only the other tree has is a folder. -/
theorem Beside.none_or_directory (h : Beside p t u) (hoff : ¬p.Has place)
    (hnone : u.find? place = none) :
    t.find? place = none ∨ t.find? place = some .directory := by
  rcases (h place).elsewhere hoff with he | ⟨-, hdir, -⟩
  · exact .inl (he.trans hnone)
  · exact .inr hdir

/-- A change at a single place. -/
theorem Beside.change (h : Beside p t u) (place : Location)
    (ht : ∀ other, other ≠ place → t'.find? other = t.find? other)
    (hu : ∀ other, other ≠ place → u'.find? other = u.find? other)
    (hplace : p.Alike place (t'.find? place) (u'.find? place)) : Beside p t' u' := by
  intro other
  by_cases hsame : other = place
  · rw [hsame]
    exact hplace
  · rw [ht other hsame, hu other hsame]
    exact h other

/-- The same entry on both trees. -/
theorem Beside.put (h : Beside p t u) (hplace : place ≠ []) (node : Node) :
    Beside p (t.put place node) (u.put place node) := by
  refine h.change place (fun _ => find?_put_of_ne hplace node)
    (fun _ => find?_put_of_ne hplace node) ?_
  rw [find?_put_self hplace, find?_put_self hplace]
  exact .refl p place _

/-- A folder that is there on the other tree already. -/
theorem Beside.put_directory (h : Beside p t u) (hplace : place ≠ [])
    (hdir : t.find? place = some .directory) : Beside p t (u.put place .directory) := by
  refine h.change place (fun _ _ => rfl) (fun _ => find?_put_of_ne hplace .directory) ?_
  rw [hdir, find?_put_self hplace]
  exact .refl p place _

/-- Where a file is removed, nothing else is. -/
theorem find?_remove_file (ht : t.Regular) {data : ByteArray} {executable : Bool}
    (hfile : t.find? place = some (.file data executable)) (other : Location) :
    (t.remove place).find? other = if other = place then none else t.find? other := by
  have hnode : t.find? place ≠ some .directory := by simp [hfile]
  rw [find?_remove t (ne_nil_of_find? hnode)]
  by_cases hsame : other = place
  · simp [hsame]
  · rw [if_neg hsame]
    split
    · rename_i hbelow
      obtain ⟨names, rfl⟩ := List.isPrefixOf_iff_prefix.1 hbelow
      exact (ht.nothing_below hnode (by simpa using hsame)).symm
    · rfl

/-! ## Folders -/

/-- The same folders are made on both trees, and what hinders that is the same. -/
theorem Beside.makeWalk {names : List String} {made made' : Bool} (h : Beside p t u)
    (hu : u.Regular) (hdir : u.find? place = some .directory)
    (hnames : ∀ name ∈ names, name ≠ "" ∧ name ≠ "." ∧ name ≠ "..")
    (hoff : ∀ front, front <+: names → front ≠ [] → ¬p.Has (place ++ front))
    (hmade : made = made' ∨ ∀ names, names ≠ [] → u.find? (place ++ names) = none) :
    (t.makeWalk made place names).1 = (u.makeWalk made' place names).1 ∧
      Beside p (t.makeWalk made place names).2 (u.makeWalk made' place names).2 := by
  induction names generalizing t u place made made' with
  | nil => exact ⟨rfl, h⟩
  | cons name names ih =>
    obtain ⟨hname, hrest⟩ := List.forall_mem_cons.1 hnames
    have hne : place ++ [name] ≠ [] := by simp
    have hbelow : ∀ front, front <+: names → front ≠ [] → ¬p.Has (place ++ [name] ++ front) := by
      intro front hfront _
      rw [List.append_assoc]
      exact hoff (name :: front) (List.cons_prefix_cons.2 ⟨rfl, hfront⟩) (List.cons_ne_nil _ _)
    rw [Tree.makeWalk, Tree.makeWalk, step_eq (h.directories hdir) hname, step_eq hdir hname]
    by_cases hlong : longestName < name.utf8ByteSize
    · rw [if_pos hlong]
      exact ⟨rfl, h⟩
    · rw [if_neg hlong]
      dsimp only
      have hoff' : ¬p.Has (place ++ [name]) := hoff [name] (by simp) (List.cons_ne_nil _ _)
      cases hnode : u.find? (place ++ [name]) with
      | none =>
        have hregular : (u.put (place ++ [name]) .directory).Regular :=
          hu.put hdir (Nat.not_lt.1 hlong) fun _ => rfl
        have hdir' := find?_put_self (t := u) hne .directory
        rcases h.none_or_directory hoff' hnode with hnext | hnext <;> rw [hnext]
        · exact ih (h.put hne .directory) hregular hdir' hrest hbelow (.inl rfl)
        · -- The folder is there on the one tree already; on the other one nothing is below it.
          refine ih (h.put_directory hne hnext) hregular hdir' hrest hbelow
            (.inr fun names hnames => ?_)
          rw [find?_put_of_ne hne .directory (by simpa using hnames)]
          exact hu.nothing_below (by simp [hnode]) hnames
      | some node =>
        have hsame : made = made' := by
          rcases hmade with hsame | hnone
          · exact hsame
          · rw [hnone [name] (List.cons_ne_nil _ _)] at hnode
            cases hnode
        subst hsame
        rw [h.find?_eq hoff' hnode]
        cases node with
        | directory => exact ih h hu hnode hrest hbelow (.inl rfl)
        | file data executable => exact ⟨rfl, h⟩

/-- Making folders on the way to the plot. -/
theorem beside_makeWalk {names : List String} {made : Bool} (ht : t.Regular)
    (hnames : ∀ name ∈ names, name ≠ "" ∧ name ≠ "." ∧ name ≠ "..")
    (hplot : ∀ front, front <+: names → ∃ q, p.Has q ∧ place ++ front <+: q ∧ place ++ front ≠ q) :
    Beside p (t.makeWalk made place names).2 t := by
  induction names generalizing t place made with
  | nil => exact .refl p t
  | cons name names ih =>
    obtain ⟨hname, hrest⟩ := List.forall_mem_cons.1 hnames
    have hbelow : ∀ front, front <+: names →
        ∃ q, p.Has q ∧ place ++ [name] ++ front <+: q ∧ place ++ [name] ++ front ≠ q := by
      intro front hfront
      have hq := hplot (name :: front) (List.cons_prefix_cons.2 ⟨rfl, hfront⟩)
      rwa [← List.append_cons]
    rw [Tree.makeWalk]
    split
    · exact .refl p t
    · rename_i next hstep
      obtain rfl : next = place ++ [name] := by
        rw [step_eq_next hstep, Path.next, if_neg (not_or.2 ⟨hname.1, hname.2.1⟩), if_neg hname.2.2]
      split
      · rename_i hnone
        have hne : place ++ [name] ≠ [] := by simp
        have hdir := step_eq_ok hstep
        have hshort : name.utf8ByteSize ≤ longestName := by
          refine Nat.not_lt.1 fun hlong => ?_
          rw [step_eq hdir hname, if_pos hlong] at hstep
          cases hstep
        have hregular : (t.put (place ++ [name]) .directory).Regular :=
          ht.put hdir hshort fun _ => rfl
        refine (ih hregular hrest hbelow).trans ?_
        refine (Beside.refl p t).change _ (fun _ => find?_put_of_ne hne .directory) (fun _ _ => rfl) ?_
        obtain ⟨q, hq, habove, hneq⟩ := hbelow [] List.nil_prefix
        rw [List.append_nil] at habove hneq
        rw [find?_put_self hne, hnone]
        exact Plot.alike_above hq habove hneq
      · exact ih ht hrest hbelow
      · exact .refl p t

theorem strict_of_folders (mid : Location) {a folders : List String} (name : String)
    (ha : a <+: folders) :
    mid ++ a <+: mid ++ folders ++ [name] ∧ mid ++ a ≠ mid ++ folders ++ [name] := by
  refine ⟨?_, fun he => ?_⟩
  · exact ((List.prefix_append_right_inj mid).2 ha).trans (List.prefix_append _ _)
  · have hlength := congrArg List.length he
    have hle := ha.length_le
    simp only [List.length_append, List.length_singleton] at hlength
    omega

theorem Beside.makeDirectories (h : Beside p t u) (hu : u.Regular) (hw : w.Starts u here mid)
    (hopen : p.Open (mid ++ w.folders ++ [w.name])) :
    (t.makeDirectories here (Path.parent path)).1 = (u.makeDirectories here (Path.parent path)).1 ∧
      Beside p (t.makeDirectories here (Path.parent path)).2
        (u.makeDirectories here (Path.parent path)).2 := by
  rw [hw.makeDirectories, (hw.mono fun _ => h.directories).makeDirectories]
  cases stop? path with
  | some fault => exact ⟨rfl, h⟩
  | none =>
    refine h.makeWalk hu hw.directory (fun _ => w.proper_of_mem_folders) (fun a ha _ => ?_) (.inl rfl)
    obtain ⟨habove, hne⟩ := strict_of_folders mid w.name ha
    exact hopen.above habove hne

theorem beside_makeDirectories (ht : t.Regular) (hw : w.Starts t here mid)
    (hplot : p.Has (mid ++ w.folders ++ [w.name])) :
    Beside p (t.makeDirectories here (Path.parent path)).2 t := by
  rw [hw.makeDirectories]
  cases stop? path with
  | some fault => exact .refl p t
  | none =>
    refine beside_makeWalk ht (fun _ => w.proper_of_mem_folders) fun a ha => ?_
    exact ⟨_, hplot, strict_of_folders mid w.name ha⟩

/-! ## Files -/

/-- A file is written at an open place of both trees. Only at a shared place may it be another one. -/
theorem Beside.write {data data' : ByteArray} (h : Beside p t u) (ht : t.Regular) (hu : u.Regular)
    (hw : w.Starts u here mid)
    (hdirs : ∀ a, a <+: w.folders → u.find? (mid ++ a) = some .directory)
    (hopen : p.Open (Path.place here path)) (hsame : ¬p.shared (Path.place here path) → data = data')
    (hvalid : p.shared (Path.place here path) → (∀ x, p.valid (some (.file data x))) ∧
      ∀ x, p.valid (some (.file data' x))) :
    (∃ fault, t.write here path data = .error fault ∧ u.write here path data' = .error fault) ∨
      ∃ t' u', t.write here path data = .ok t' ∧ u.write here path data' = .ok u' ∧
        Beside p t' u' := by
  have hlocate : t.locate here path = u.locate here path := by
    rw [hw.locate hu hdirs, (hw.mono fun _ => h.directories).locate ht fun a ha =>
      h.directories (hdirs a ha)]
  cases hplace : u.locate here path with
  | error fault =>
    exact .inl ⟨fault, by rw [Tree.write, hlocate, hplace], by rw [Tree.write, hplace]⟩
  | ok place =>
    rw [← locate_eq_place hplace] at hopen hsame hvalid
    rw [hplace] at hlocate
    by_cases hdir : u.find? place = some .directory
    · exact .inl ⟨_, write_directory hlocate (h.directories hdir) data,
        write_directory hplace hdir data'⟩
    · have hdir' : t.find? place ≠ some .directory := by
        by_cases hshared : p.shared place
        · rcases (h place).shared hshared with he | ⟨hthere, -⟩
          · rwa [he]
          · exact fun hdir' => p.not_directory (hdir' ▸ hthere)
        · rwa [(h place).same hopen hshared]
      have hne := ne_nil_of_find? hdir
      refine .inr ⟨_, _, write_eq hlocate hdir' data, write_eq hplace hdir data', ?_⟩
      refine h.change place (fun _ => find?_put_of_ne hne _) (fun _ => find?_put_of_ne hne _) ?_
      rw [find?_put_self hne, find?_put_self hne]
      by_cases hshared : p.shared place
      · obtain ⟨hvalid, hvalid'⟩ := hvalid hshared
        exact Plot.alike_shared hshared (hvalid _) (hvalid' _)
      · rw [hsame hshared, (h place).same hopen hshared]
        exact .refl p place _

/-- A file is written on the plot. -/
theorem beside_write {data : ByteArray} (hwrite : t.write here path data = .ok u)
    (hplot : p.own (Path.place here path) ∨ p.shared (Path.place here path) ∧
      (∀ executable, p.valid (some (.file data executable))) ∧
        p.valid (t.find? (Path.place here path))) : Beside p u t := by
  obtain ⟨place, hlocate, hdir, rfl⟩ := write_eq_ok.1 hwrite
  rw [← locate_eq_place hlocate] at hplot
  have hne : place ≠ [] := ne_nil_of_find? hdir
  refine (Beside.refl p t).change _ (fun _ => find?_put_of_ne hne _) (fun _ _ => rfl) ?_
  rw [find?_put_self hne]
  rcases hplot with hown | ⟨hshared, hvalid, hbefore⟩
  · exact Plot.alike_own hown hdir _
  · exact Plot.alike_shared hshared (hvalid _) hbefore

/-- A file is removed from an open place of both trees. -/
theorem Beside.removeFile (h : Beside p t u) (ht : t.Regular) (hu : u.Regular)
    (hopen : p.Open (Path.place here path)) (hshared : ¬p.shared (Path.place here path))
    {data : ByteArray} (hdata : u.readBytes here path = .ok data) :
    ∃ t' u', t.removeFile here path = .ok t' ∧ u.removeFile here path = .ok u' ∧ Beside p t' u' := by
  obtain ⟨x, hfile⟩ := content_eq_some.1 (readBytes_content hdata)
  cases hlocate : u.locate here path with
  | error fault => simp [readBytes, look, hlocate] at hdata
  | ok place =>
    rw [← locate_eq_place hlocate] at hopen hshared hfile
    have hfile' := hfile
    rw [← (h place).same hopen hshared] at hfile'
    refine ⟨_, _, removeFile_eq (locate_mono (fun _ => h.directories) hlocate) hfile',
      removeFile_eq hlocate hfile, ?_⟩
    refine h.change place (fun other hne => ?_) (fun other hne => ?_) ?_
    · rw [find?_remove_file ht hfile', if_neg hne]
    · rw [find?_remove_file hu hfile, if_neg hne]
    · rw [find?_remove_file ht hfile', find?_remove_file hu hfile, if_pos rfl, if_pos rfl]
      exact .refl p place _

/-- A file of the plot is removed. -/
theorem beside_removeFile (ht : t.Regular) (hremove : t.removeFile here path = .ok u)
    (hplot : p.own (Path.place here path)) : Beside p u t := by
  obtain ⟨place, data, x, hlocate, hfile, rfl⟩ := removeFile_eq_ok.1 hremove
  rw [← locate_eq_place hlocate] at hplot
  refine (Beside.refl p t).change place (fun other hne => ?_) (fun _ _ => rfl) ?_
  · rw [find?_remove_file ht hfile, if_neg hne]
  · exact Plot.alike_own hplot (by simp [hfile]) _

/-! ## Looking -/

/-- At an open place there is the same to be seen. -/
theorem Beside.look_iff (h : Beside p t u) (ht : t.Regular) (hu : u.Regular)
    (hw : w.Starts u here mid) (hopen : p.Open (mid ++ w.folders ++ [w.name]))
    (hshared : ¬p.shared (mid ++ w.folders ++ [w.name])) {node : Node} :
    t.look here path = .ok node ↔ u.look here path = .ok node := by
  rw [hw.look hu, (hw.mono fun _ => h.directories).look ht, (h _).same hopen hshared]

/-- A walk among folders of which some may be missing. -/
theorem walk_bare {parts : List String} (honward : ".." ∉ parts)
    (hshort : ∀ part ∈ parts, part.utf8ByteSize ≤ longestName)
    (hbare : ∀ a, a <+: named parts →
      t.find? (place ++ a) = none ∨ t.find? (place ++ a) = some .directory) :
    t.walk place parts = .error .missing ∨ t.walk place parts = .ok (Path.follow place parts) := by
  induction parts generalizing place with
  | nil => exact .inr rfl
  | cons part parts ih =>
    rw [List.mem_cons, not_or] at honward
    obtain ⟨hpart, hshort⟩ := List.forall_mem_cons.1 hshort
    have hhead := hbare [] List.nil_prefix
    rw [List.append_nil] at hhead
    rcases hhead with hnone | hdir
    · left
      rw [walk, step, hnone]
    · rw [walk, Path.follow_cons, Path.next]
      by_cases hstay : part = "" ∨ part = "."
      · rw [named_cons_of_stay hstay] at hbare
        simp only [step, hdir, if_pos hstay]
        exact ih honward.2 hshort hbare
      · rw [named_cons hstay] at hbare
        have hname := not_or.1 hstay
        rw [step_eq hdir ⟨hname.1, hname.2, Ne.symm honward.1⟩, if_neg (Nat.not_lt.2 hpart),
          if_neg hstay, if_neg (Ne.symm honward.1)]
        refine ih honward.2 hshort fun a ha => ?_
        simpa using hbare (part :: a) (List.cons_prefix_cons.2 ⟨rfl, ha⟩)

/-- On both trees a walk ends in the same way, or the one that goes farther finds nothing either. -/
theorem Beside.walk {parts : List String} (h : Beside p t u) (hu : u.Regular)
    (hdir : u.find? place = some .directory) (honward : ".." ∉ parts)
    (hshort : ∀ part ∈ parts, part.utf8ByteSize ≤ longestName)
    (hoff : ∀ a, a <+: named parts → ¬p.Has (place ++ a)) :
    t.walk place parts = u.walk place parts ∨ u.walk place parts = .error .missing ∧
      u.find? (Path.follow place parts) = none ∧ (t.walk place parts = .error .missing ∨
        t.walk place parts = .ok (Path.follow place parts)) := by
  induction parts generalizing place with
  | nil => exact .inl rfl
  | cons part parts ih =>
    rw [List.mem_cons, not_or] at honward
    obtain ⟨hpart, hshort⟩ := List.forall_mem_cons.1 hshort
    rw [Tree.walk, Tree.walk, Path.follow_cons, Path.next]
    by_cases hstay : part = "" ∨ part = "."
    · rw [named_cons_of_stay hstay] at hoff
      simp only [step, hdir, h.directories hdir, if_pos hstay]
      exact ih hdir honward.2 hshort hoff
    · rw [named_cons hstay] at hoff
      have hname := not_or.1 hstay
      have hproper := And.intro hname.1 (And.intro hname.2 (Ne.symm honward.1))
      have hbelow : ∀ a, a <+: named parts → ¬p.Has (place ++ [part] ++ a) := fun a ha => by
        simpa using hoff (part :: a) (List.cons_prefix_cons.2 ⟨rfl, ha⟩)
      rw [step_eq hdir hproper, step_eq (h.directories hdir) hproper, if_neg (Nat.not_lt.2 hpart),
        if_neg hstay, if_neg hproper.2.2]
      dsimp only
      cases hnode : u.find? (place ++ [part]) with
      | none =>
        -- From here on nothing is there on the one tree, and on the other one folders at most.
        have hnone := hu.none_below hnode
        cases parts with
        | nil => exact .inl rfl
        | cons other parts =>
          refine .inr ⟨by rw [Tree.walk, step, hnode], ?_, walk_bare honward.2 hshort fun a ha =>
            h.none_or_directory (hbelow a ha) (hnone a)⟩
          rw [Path.follow_onward honward.2]
          exact hnone _
      | some node =>
        cases node with
        | directory => exact ih hnode honward.2 hshort hbelow
        | file data x =>
          left
          have hnode' := h.find?_eq (by simpa using hbelow [] List.nil_prefix) hnode
          cases parts with
          | nil => rfl
          | cons other parts => rw [Tree.walk, Tree.walk, step, step, hnode', hnode]

/-- A path away from the plot leads to the same on both trees. -/
theorem Beside.look_eq (h : Beside p t u) (hu : u.Regular)
    (hhere : u.find? here = some .directory) (hsteady : u.Steady here path)
    (hshort : ∀ part ∈ Path.parts path, part.utf8ByteSize ≤ longestName)
    (hfree : ∀ q, p.Has q → ¬q <+: Path.place here path ∧ ¬Path.place here path <+: q) :
    t.look here path = u.look here path := by
  obtain ⟨lead, rest, place, hparts, hwalk, hrest⟩ := hsteady
  obtain ⟨lead', rest', mid, hsplit, hwalk', hmid, hrest', -⟩ :=
    walk_from_directory hu (find?_origin hhere path) hwalk hrest
  rw [hsplit] at hparts
  have hplace : Path.place here path = Path.follow mid rest' := by
    rw [Path.place, hparts, Path.follow_append, ← walk_eq_follow hwalk']
  have hfind : t.find? (Path.place here path) = u.find? (Path.place here path) := by
    have hnot : ¬p.Has (Path.place here path) := fun hq => (hfree _ hq).1 List.prefix_rfl
    rcases (h _).elsewhere hnot with he | ⟨-, -, q, hq, habove⟩
    · exact he
    · exact absurd habove (hfree q hq).2
  rw [hplace] at hfind hfree
  have hoff : ∀ a, a <+: named rest' → ¬p.Has (mid ++ a) := by
    intro a ha hq
    refine (hfree _ hq).1 ?_
    rw [Path.follow_onward hrest']
    exact (List.prefix_append_right_inj mid).2 ha
  have hshort' : ∀ part ∈ rest', part.utf8ByteSize ≤ longestName := fun part hpart =>
    hshort part (by rw [hparts]; exact List.mem_append_right _ hpart)
  cases hrefuse : refuse? path with
  | some fault => rw [look, look, locate, locate, hrefuse]
  | none =>
    have hlocate : ∀ v : Tree, v.walk (origin here path) lead' = .ok mid →
        v.locate here path = v.walk mid rest' := by
      intro v hv
      rw [origin] at hv
      rw [locate, hrefuse, hparts, walk_append]
      simp only [hv]
    rw [look, look, hlocate t (walk_mono (fun _ => h.directories) hwalk'), hlocate u hwalk']
    rcases h.walk hu hmid hrest' hshort' hoff with he | ⟨hmissing, hnone, he | he⟩
    · rw [he]
      cases hend : u.walk mid rest' with
      | error fault => rfl
      | ok place =>
        rw [← walk_eq_follow hend] at hfind
        simp only [hfind]
    · rw [he, hmissing]
    · rw [he, hmissing]
      simp only [hfind, hnone]

end Beside

end Tree
end Disk
end TrustTrial
