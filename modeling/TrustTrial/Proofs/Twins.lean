import TrustTrial.Proofs.Keeping

/-!
# TrustTrial.Proofs.Twins

One step on two desks whose files differ on a plot. `Abreast` says that it ends on both in the same
way and leaves them as much alike as they were. That is so for every step that looks and writes at
places off the plot, and for the keys that are shared: there the values may differ, but both are read.
-/

namespace TrustTrial
namespace Disk
namespace Tree

section Directories

variable {t u : Tree} {here place : Location} {path : String}

theorem makeDirectories_mono (h : t.find? place = some .directory) :
    (t.makeDirectories here path).2.find? place = some .directory := by
  rw [makeDirectories]
  split
  · exact h
  · split
    · exact h
    · exact makeWalk_mono _ _ _ h

theorem write_mono {data : ByteArray} (hwrite : t.write here path data = .ok u)
    (h : t.find? place = some .directory) : u.find? place = some .directory := by
  obtain ⟨other, -, hdir, rfl⟩ := write_eq_ok.1 hwrite
  rw [find?_put_of_ne (ne_nil_of_find? hdir), h]
  rintro rfl
  exact hdir h

theorem removeFile_mono (ht : t.Regular) (hremove : t.removeFile here path = .ok u)
    (h : t.find? place = some .directory) : u.find? place = some .directory := by
  obtain ⟨other, data, executable, -, hfile, rfl⟩ := removeFile_eq_ok.1 hremove
  rw [find?_remove_file ht hfile, if_neg, h]
  rintro rfl
  rw [h] at hfile
  cases hfile

theorem Steady.mono (h : t.Steady here path)
    (hkeep : ∀ place, t.find? place = some .directory → u.find? place = some .directory) :
    u.Steady here path := by
  obtain ⟨lead, rest, place, hparts, hwalk, hrest⟩ := h
  exact ⟨lead, rest, place, hparts, walk_mono hkeep hwalk, hrest⟩

end Directories

/-- Two regular trees that differ on a plot. The second one has the directories that were there at
the start. -/
structure Near (p : Plot) (s t u : Tree) : Prop where
  beside : Beside p t u
  left : t.Regular
  right : u.Regular
  kept : ∀ place, s.find? place = some .directory → u.find? place = some .directory

/-- A path to an open place that is not shared. -/
structure Seen (p : Plot) (t : Tree) (here : Location) (path : String) : Prop where
  reaches : t.Reaches here path
  opened : p.Open (Path.place here path)
  unshared : ¬p.shared (Path.place here path)

/-- A path that does not lead to the plot, nor along it, nor on the way there. -/
structure Aside (p : Plot) (t : Tree) (here : Location) (path : String) : Prop where
  steady : t.Steady here path
  short : ∀ part ∈ Path.parts path, part.utf8ByteSize ≤ longestName
  free : ∀ q, p.Has q → ¬q <+: Path.place here path ∧ ¬Path.place here path <+: q

section Near

variable {p : Plot} {s t u : Tree} {here : Location} {path : String} {node : Node}

theorem Near.look_iff (h : Near p s t u) (hs : Seen p s here path) :
    t.look here path = .ok node ↔ u.look here path = .ok node := by
  obtain ⟨w, mid, hw⟩ := hs.reaches.mono h.kept
  have hopen := hs.opened
  have hunshared := hs.unshared
  rw [hw.place_eq] at hopen hunshared
  exact h.beside.look_iff h.left h.right hw hopen hunshared

theorem Near.leads_eq (h : Near p s t u) (hs : Seen p s here path) :
    t.leads here path = u.leads here path := by
  rw [Bool.eq_iff_iff, leads_iff, leads_iff]
  exact exists_congr fun _ => h.look_iff hs

/-- What is to be seen at an open place on one of the trees is to be seen on both. -/
theorem Near.look_eq (h : Near p s t u) (hs : Seen p s here path)
    (hleads : u.leads here path = true) : t.look here path = u.look here path := by
  obtain ⟨node, hlook⟩ := leads_iff.1 hleads
  rw [hlook]
  exact (h.look_iff hs).2 hlook

theorem Near.look_aside (h : Near p s t u) (hhere : s.find? here = some .directory)
    (ha : Aside p s here path) : t.look here path = u.look here path :=
  h.beside.look_eq h.right (h.kept here hhere) (ha.steady.mono h.kept) ha.short ha.free

/-- The folders on the way to an open place are made on both trees, or on neither for the same
reason. -/
theorem Near.makeDirectories (h : Near p s t u) (hreach : s.Reaches here path)
    (hopen : p.Open (Path.place here path)) :
    ∃ fault t' u', t.makeDirectories here (Path.parent path) = (fault, t') ∧
      u.makeDirectories here (Path.parent path) = (fault, u') ∧ Near p s t' u' := by
  obtain ⟨w, mid, hw⟩ := hreach.mono h.kept
  obtain ⟨hfault, hmade⟩ := h.beside.makeDirectories h.right hw (hw.place_eq ▸ hopen)
  have hleft := (makeDirectories_keeps h.left here (Path.parent path)).1
  have hright := (makeDirectories_keeps h.right here (Path.parent path)).1
  have hkept : ∀ place, s.find? place = some .directory →
      (u.makeDirectories here (Path.parent path)).2.find? place = some .directory :=
    fun place hplace => makeDirectories_mono (h.kept place hplace)
  rcases hmake : t.makeDirectories here (Path.parent path) with ⟨fault, t'⟩
  rcases hmake' : u.makeDirectories here (Path.parent path) with ⟨fault', u'⟩
  rw [hmake] at hleft
  rw [hmake'] at hright hkept
  rw [hmake, hmake'] at hfault hmade
  obtain rfl : fault = fault' := hfault
  exact ⟨fault, t', u', rfl, rfl, hmade, hleft, hright, hkept⟩

/-- Once these folders are there, a file is written on both trees, or on neither for the same
reason. -/
theorem Near.write (h : Near p s t u) (hreach : s.Reaches here path)
    (hopen : p.Open (Path.place here path)) {before : Tree}
    (hbefore : ∀ place, s.find? place = some .directory → before.find? place = some .directory)
    (hmake : before.makeDirectories here (Path.parent path) = (none, u)) {data data' : ByteArray}
    (hsame : ¬p.shared (Path.place here path) → data = data')
    (hvalid : p.shared (Path.place here path) → (∀ x, p.valid (some (.file data x))) ∧
      ∀ x, p.valid (some (.file data' x))) :
    (∃ fault, t.write here path data = .error fault ∧ u.write here path data' = .error fault) ∨
      ∃ t' u', t.write here path data = .ok t' ∧ u.write here path data' = .ok u' ∧
        Near p s t' u' := by
  obtain ⟨w, mid, hw⟩ := hreach.mono hbefore
  have hmono : ∀ place, before.find? place = some .directory → u.find? place = some .directory :=
    fun place hplace => by
      have hkept : (before.makeDirectories here (Path.parent path)).2.find? place =
          some .directory := makeDirectories_mono hplace
      rwa [hmake] at hkept
  have hdirs : ∀ a, a <+: w.folders → u.find? (mid ++ a) = some .directory := by
    rw [hw.makeDirectories] at hmake
    split at hmake
    · cases hmake
    · exact fun a => makeWalk_directories (fun _ => w.proper_of_mem_folders) hw.directory hmake
  rcases h.beside.write h.left h.right (hw.mono hmono) hdirs hopen hsame hvalid with
    hfault | ⟨t', u', ht, hu, hwritten⟩
  · exact .inl hfault
  · exact .inr ⟨t', u', ht, hu, hwritten, (write_keeps h.left ht).2.1, (write_keeps h.right hu).2.1,
      fun place hplace => write_mono hu (h.kept place hplace)⟩

theorem readText_congr (hlook : t.look here path = u.look here path) :
    t.readText here path = u.readText here path := by
  rw [readText, readText, readBytes, readBytes, hlook]

theorem readText_of_not_leads (h : ¬t.leads here path = true) :
    ∃ fault, t.readText here path = .error fault := by
  rw [leads] at h
  cases hlook : t.look here path with
  | ok node => simp [hlook] at h
  | error fault => exact ⟨fault, by simp only [readText, readBytes, hlook]⟩

end Near

end Tree
end Disk

namespace Notary

open Disk Disk.Tree Step

/-! ## Two desks -/

/-- Two desks that differ in their files alone, and there on a plot. -/
structure Twin (p : Plot) (s : Tree) (d e : Desk) : Prop where
  near : Near p s d.disk e.disk
  input : d.input = e.input
  output : d.output = e.output
  made : d.made = e.made

/-- Two steps that end alike, each on its own desk: both well, with values that are related, or both
with the same trouble. -/
inductive Abreast {α β : Type} (p : Plot) (s : Tree) (V : α → β → Prop) (x : Step α) (y : Step β)
    (d e : Desk) : Prop where
  | well {a : α} {b : β} {d' e' : Desk} : Step.run x d = (.ok a, d') → Step.run y e = (.ok b, e') →
      V a b → Twin p s d' e' → Abreast p s V x y d e
  | ill {trouble : Trouble} {d' e' : Desk} : Step.run x d = (.error trouble, d') →
      Step.run y e = (.error trouble, e') → Twin p s d' e' → Abreast p s V x y d e

/-- A step that ends in the same way on any two such desks. -/
def Agrees {α : Type} (p : Plot) (s : Tree) (x : Step α) : Prop :=
  ∀ d e, Twin p s d e → Abreast p s Eq x x d e

section Steps

variable {α β γ δ : Type} {p : Plot} {s : Tree} {V : α → β → Prop} {W : γ → δ → Prop} {x : Step α}
  {y : Step β} {f : α → Step γ} {g : β → Step δ} {d e d' e' : Desk}

/-- Steps that run as others do. -/
theorem Abreast.of_run {x' : Step γ} {y' : Step δ} (h : Abreast p s W x' y' d' e') {x : Step γ}
    {y : Step δ} (hx : Step.run x d = Step.run x' d') (hy : Step.run y e = Step.run y' e') :
    Abreast p s W x y d e := by
  cases h with
  | well hx' hy' hV h => exact .well (hx.trans hx') (hy.trans hy') hV h
  | ill hx' hy' h => exact .ill (hx.trans hx') (hy.trans hy') h

/-- What follows may rely on how the steps have ended. -/
theorem Abreast.bind_of (h : Abreast p s V x y d e)
    (hf : ∀ a b d' e', Step.run x d = (.ok a, d') → Step.run y e = (.ok b, e') → V a b →
      Twin p s d' e' → Abreast p s W (f a) (g b) d' e') : Abreast p s W (x >>= f) (y >>= g) d e := by
  cases h with
  | well hx hy hV h =>
    exact (hf _ _ _ _ hx hy hV h).of_run (by rw [run_bind, hx]) (by rw [run_bind, hy])
  | ill hx hy h => exact .ill (by rw [run_bind, hx]) (by rw [run_bind, hy]) h

theorem Abreast.bind {x y : Step α} (h : Abreast p s Eq x y d e) (hf : ∀ a, Agrees p s (f a)) :
    Abreast p s Eq (x >>= f) (y >>= f) d e := by
  refine h.bind_of fun a b d' e' _ _ hab htwin => ?_
  rw [← hab]
  exact hf a d' e' htwin

theorem Abreast.mono {V' : α → β → Prop} (h : Abreast p s V x y d e) (hV : ∀ a b, V a b → V' a b) :
    Abreast p s V' x y d e := by
  cases h with
  | well hx hy hab h => exact .well hx hy (hV _ _ hab) h
  | ill hx hy h => exact .ill hx hy h

theorem Agrees.bind (hx : Agrees p s x) (hf : ∀ a, Agrees p s (f a)) : Agrees p s (x >>= f) :=
  fun d e h => (hx d e h).bind hf

theorem agrees_pure (a : α) : Agrees p s (pure a : Step α) := fun _ _ h => .well rfl rfl rfl h

theorem agrees_throw (trouble : Trouble) : Agrees p s (throw trouble : Step α) :=
  fun _ _ h => .ill rfl rfl h

theorem agrees_throw_bind (trouble : Trouble) (f : α → Step γ) : Agrees p s (throw trouble >>= f) :=
  fun _ _ h => .ill rfl rfl h

theorem agrees_print (text : String) : Agrees p s (print text) := fun _ _ h =>
  .well rfl rfl rfl ⟨h.near, h.input, congrArg (· ++ text.toUTF8) h.output, h.made⟩

theorem abreast_look (h : Twin p s d e) {q : Tree → Except Trouble α} (hq : q d.disk = q e.disk) :
    Abreast p s Eq (look q) (look q) d e := by
  have hleft : Step.run (look q) d = (q e.disk, d) := congrArg (·, d) hq
  have hright : Step.run (look q) e = (q e.disk, e) := rfl
  cases hresult : q e.disk with
  | error trouble => exact .ill (hresult ▸ hleft) (hresult ▸ hright) h
  | ok a => exact .well (hresult ▸ hleft) (hresult ▸ hright) rfl h

theorem agrees_readLine : Agrees p s readLine := by
  intro d e h
  have htwin : Twin p s { d with input := (Text.cutLine e.input).2 }
      { e with input := (Text.cutLine e.input).2 } := ⟨h.near, rfl, h.output, h.made⟩
  cases htext : Text.lineText (Text.cutLine e.input).1 with
  | none =>
    have hleft : Step.run readLine d =
        (.error .inputNotText, { d with input := (Text.cutLine e.input).2 }) := by
      simp only [Step.run, readLine, h.input, htext]
    exact .ill hleft (by simp only [Step.run, readLine, htext]) htwin
  | some line =>
    have hleft : Step.run readLine d =
        (.ok line, { d with input := (Text.cutLine e.input).2 }) := by
      simp only [Step.run, readLine, h.input, htext]
    exact .well hleft (by simp only [Step.run, readLine, htext]) (Eq.refl line) htwin

theorem agrees_requirePassphrase (o : Office) (name : String) :
    Agrees p s (requirePassphrase o name) := by
  unfold requirePassphrase
  split
  · exact agrees_throw _
  · split
    · exact agrees_throw _
    · exact agrees_pure _

theorem agrees_countOn (r : Record) : Agrees p s (countOn r) := by
  unfold countOn
  split
  · exact agrees_pure _
  · exact agrees_throw _

theorem agrees_newKey (o : Office) : Agrees p s (newKey o) := fun _ _ h =>
  .well rfl rfl (congrArg o.keyName h.made) ⟨h.near, h.input, h.output, congrArg (· + 1) h.made⟩

/-- The same keys are made, whatever keys there are already. -/
theorem abreast_makeKeys (h : Twin p s d e) (o : Office) (repo : String) (roles : List String)
    (r : Record) (keys keys' : List LocalKey) :
    Abreast p s (fun a b => a.1 = b.1) (makeKeys o repo roles r keys) (makeKeys o repo roles r keys') d
      e := by
  induction roles generalizing d e r keys keys' with
  | nil => exact .well rfl rfl rfl h
  | cons role roles ih =>
    refine (agrees_newKey o d e h).bind_of fun id id' d e _ _ hid h => ?_
    rw [← hid]
    exact ih h _ _ _

end Steps

/-! ## Files -/

section Files

variable {α : Type} {p : Plot} {s : Tree} {f : Bool → Step α} {d e : Desk} {here : Location}
  {path : String}

/-- What depends on whether there is something at an open place. -/
theorem agrees_present_bind (hs : Seen p s here path)
    (hf : ∀ found d e, Twin p s d e →
      (found = true → d.disk.look here path = e.disk.look here path) →
        Abreast p s Eq (f found) (f found) d e) : Agrees p s (present here path >>= f) := by
  intro d e h
  refine (hf _ d e h (h.near.look_eq hs)).of_run ?_ (by rw [run_bind, run_present])
  rw [run_bind, run_present, h.near.leads_eq hs]

theorem abreast_readFile (h : Twin p s d e) (hlook : d.disk.look here path = e.disk.look here path)
    (shape : Json.Shape) (ofValue? : Json.Value → Option α) :
    Abreast p s Eq (readFile here shape ofValue? path) (readFile here shape ofValue? path) d e := by
  refine (abreast_look h (by rw [readText_congr hlook])).bind fun text => ?_
  split
  · exact agrees_throw _
  · exact agrees_pure _

/-- Files away from the plot are read alike, or not read for the same reason. -/
theorem agrees_readBytes (hhere : s.find? here = some .directory) (ha : Aside p s here path) :
    Agrees p s (Notary.readBytes here path) := fun d e h =>
  abreast_look h (by rw [Tree.readBytes, Tree.readBytes, h.near.look_aside hhere ha])

theorem abreast_writeFile (h : Twin p s d e) (hreach : s.Reaches here path)
    (hopen : p.Open (Path.place here path)) {v v' : Json.Value}
    (hsame : ¬p.shared (Path.place here path) → v = v')
    (hvalid : p.shared (Path.place here path) → (∀ x, p.valid (some (.file v.pretty.toUTF8 x))) ∧
      ∀ x, p.valid (some (.file v'.pretty.toUTF8 x))) :
    Abreast p s Eq (writeFile here path v) (writeFile here path v') d e := by
  obtain ⟨fault, t, u, hmake, hmake', hnear⟩ := h.near.makeDirectories hreach hopen
  have htwin : Twin p s { d with disk := t } { e with disk := u } :=
    ⟨hnear, h.input, h.output, h.made⟩
  cases fault with
  | some fault =>
    have hleft : Step.run (writeFile here path v) d = (.error (.notMade fault), { d with disk := t }) :=
      by simp only [Step.run, writeFile, hmake]
    exact .ill hleft (by simp only [Step.run, writeFile, hmake']) htwin
  | none =>
    rcases hnear.write hreach hopen h.near.kept hmake'
      (fun hshared => congrArg (fun v : Json.Value => v.pretty.toUTF8) (hsame hshared)) hvalid with
      ⟨fault, ht, hu⟩ | ⟨t', u', ht, hu, hwritten⟩
    · have hleft : Step.run (writeFile here path v) d =
          (.error (.notWritten path fault), { d with disk := t }) := by
        simp only [Step.run, writeFile, hmake, ht]
      exact .ill hleft (by simp only [Step.run, writeFile, hmake', hu]) htwin
    · have htwin' : Twin p s { d with disk := t' } { e with disk := u' } :=
        ⟨hwritten, h.input, h.output, h.made⟩
      exact .well (by simp only [Step.run, writeFile, hmake, ht])
        (by simp only [Step.run, writeFile, hmake', hu]) (rfl : () = ()) htwin'

/-- The same is written at a place that is not shared. -/
theorem agrees_writeFile (hs : Seen p s here path) (v : Json.Value) :
    Agrees p s (writeFile here path v) := fun _ _ h =>
  abreast_writeFile h hs.reaches hs.opened (fun _ => rfl) fun hshared => absurd hshared hs.unshared

theorem abreast_removeFile (h : Twin p s d e) (hs : Seen p s here path) {data : ByteArray}
    (hdata : e.disk.readBytes here path = .ok data) :
    Abreast p s Eq (removeFile here path) (removeFile here path) d e := by
  obtain ⟨t, u, ht, hu, hbeside⟩ :=
    h.near.beside.removeFile h.near.left h.near.right hs.opened hs.unshared hdata
  have htwin : Twin p s { d with disk := t } { e with disk := u } :=
    ⟨⟨hbeside, (removeFile_keeps h.near.left ht).1, (removeFile_keeps h.near.right hu).1,
      fun place hplace => removeFile_mono h.near.right hu (h.near.kept place hplace)⟩, h.input,
      h.output, h.made⟩
  exact .well (by simp only [Step.run, removeFile, ht]) (by simp only [Step.run, removeFile, hu])
    (rfl : () = ()) htwin

end Files

end Notary
end TrustTrial
