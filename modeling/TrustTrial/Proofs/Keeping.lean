import TrustTrial.Proofs.Plots

/-!
# TrustTrial.Proofs.Keeping

A request about a repository stays on the repository's plot, also if it fails half way. `Keeps` has
the rule for sequences; `keeps_writeFile` and `keeps_removeFile` are the only steps that change
files, and every command is made of these (`Concerns.within`).
-/

namespace TrustTrial
namespace Notary

open Disk Disk.Tree Step

/-- The trees that differ from a tree on a plot at most. -/
structure Within (p : Plot) (t u : Tree) : Prop where
  regular : u.Regular
  beside : Beside p u t

namespace Step

variable {α β : Type} {x : Step α} {f : α → Step β} {P : Tree → Prop}

/-- A step after which the tree still has a property, however the step ends. -/
def Keeps (P : Tree → Prop) (x : Step α) : Prop := ∀ d, P d.disk → P (run x d).2.disk

theorem Quiet.keeps (hx : Quiet x) (P : Tree → Prop) : Keeps P x := by
  intro d hd
  rwa [(hx d).disk]

/-- What follows may rely on the step before having succeeded on such a tree. -/
theorem Keeps.bind_of (hx : Keeps P x)
    (hf : ∀ a d e, P d.disk → run x d = (.ok a, e) → Keeps P (f a)) : Keeps P (x >>= f) := by
  intro d hd
  have hmid := hx d hd
  rw [run_bind]
  split
  · rename_i e hrun
    rwa [hrun] at hmid
  · rename_i a e hrun
    rw [hrun] at hmid
    exact hf a d e hd hrun e hmid

theorem Keeps.bind (hx : Keeps P x) (hf : ∀ a, Keeps P (f a)) : Keeps P (x >>= f) :=
  hx.bind_of fun a _ _ _ _ => hf a

theorem keeps_newKey (P : Tree → Prop) (o : Office) : Keeps P (newKey o) := fun _ hd => hd

theorem keeps_makeKeys (P : Tree → Prop) (o : Office) (repo : String) (roles : List String)
    (r : Record) (keys : List LocalKey) : Keeps P (makeKeys o repo roles r keys) := by
  induction roles generalizing r keys with
  | nil => exact (quiet_pure _).keeps P
  | cons role roles ih => exact (keeps_newKey P o).bind fun id => ih _ _

end Step

/-! ## Files -/

section Files

variable {p : Plot} {t : Tree} {here : Location} {path : String}

theorem keeps_writeFile (hreach : t.Reaches here path) {v : Json.Value}
    (hplot : p.own (Path.place here path) ∨ p.shared (Path.place here path) ∧
      (∀ x, p.valid (some (.file v.pretty.toUTF8 x))) ∧
        (refuse? path = none → p.valid (t.find? (Path.place here path)))) :
    Keeps (Within p t) (writeFile here path v) := by
  intro d hd
  obtain ⟨w, mid, hw⟩ := hreach
  have hhas : p.Has (mid ++ w.folders ++ [w.name]) := by
    rw [← hw.place_eq]
    exact hplot.imp_right And.left
  have hmade := (beside_makeDirectories hd.regular (hw.mono fun _ => hd.beside.directories) hhas).trans
    hd.beside
  have hregular := (makeDirectories_keeps hd.regular here (Path.parent path)).1
  simp only [Step.run, writeFile]
  split
  · rename_i hmake
    rw [hmake] at hmade hregular
    exact ⟨hregular, hmade⟩
  · rename_i u hmake
    rw [hmake] at hmade hregular
    split
    · exact ⟨hregular, hmade⟩
    · rename_i hwrite
      obtain ⟨hrefuse, hwritten, -⟩ := write_keeps hregular hwrite
      refine ⟨hwritten, (beside_write hwrite ?_).trans hmade⟩
      rcases hplot with hown | ⟨hshared, hvalid, hbefore⟩
      · exact .inl hown
      · -- What is there now is what was there at first, or valid for itself.
        refine .inr ⟨hshared, hvalid, ?_⟩
        rcases (hmade (Path.place here path)).shared hshared with he | ⟨hthere, -⟩
        · exact he ▸ hbefore hrefuse
        · exact hthere

theorem keeps_removeFile (hplot : p.own (Path.place here path)) :
    Keeps (Within p t) (removeFile here path) := by
  intro d hd
  simp only [Step.run, removeFile]
  split
  · exact hd
  · rename_i hremove
    exact ⟨(removeFile_keeps hd.regular hremove).1,
      (beside_removeFile hd.regular hremove hplot).trans hd.beside⟩

end Files

/-! ## Commands -/

section Commands

variable {shelf home : Location} {homes : Location → Prop} {hh : Separate shelf homes} {t : Tree}
  {o : Office} {server trustDir repo : String}

theorem keeps_saveRecord (hc : Placed t o.here server trustDir shelf homes home) (r : Record) :
    Keeps (Within (plotOf hh repo) t) (saveRecord o.here server repo r) :=
  keeps_writeFile (hc.reaches_shelf (proper_recordName repo))
    (.inl (.inl (hc.addressed.recordPath repo)))

theorem own_staged (hc : Placed t o.here server trustDir shelf homes home)
    (hrepo : Path.Straight repo) :
    (plotOf hh repo).own (Path.place o.here (stagedPath trustDir repo)) := by
  rw [hc.addressed.stagedPath hrepo, stagedPlace_eq]
  exact .inr ⟨home, hc.among, _, List.mem_cons_self, rfl⟩

theorem keeps_saveStaged (hc : Placed t o.here server trustDir shelf homes home)
    (hrepo : Path.Straight repo) (staged : List Staged) :
    Keeps (Within (plotOf hh repo) t) (saveStaged o.here trustDir repo staged) :=
  keeps_writeFile (hc.reaches_staged hrepo) (.inl (own_staged hc hrepo))

theorem keeps_sync (hc : Placed t o.here server trustDir shelf homes home)
    (hrepo : Path.Straight repo) (r : Record) :
    Keeps (Within (plotOf hh repo) t) (sync o.here trustDir repo r) := by
  refine keeps_writeFile (hc.reaches_root hrepo) (.inl ?_)
  rw [hc.addressed.rootPath hrepo, rootPlace_eq]
  exact .inr ⟨home, hc.among, _, List.mem_cons_of_mem _ List.mem_cons_self, rfl⟩

/-- Keys are saved in the place of keys. -/
theorem keeps_saveKeys (hc : Placed t o.here server trustDir shelf homes home)
    (hkeys : refuse? (keysPath trustDir) = none →
      KeysNode (t.find? (Path.place o.here (keysPath trustDir)))) (keys : List LocalKey) :
    Keeps (Within (plotOf hh repo) t) (saveKeys o.here trustDir keys) :=
  keeps_writeFile hc.reaches_keys
    (.inr ⟨⟨home, hc.among, hc.addressed.keysPath⟩, keysNode_printed keys, hkeys⟩)

/-- Where keys have been loaded from, there are keys or nothing. -/
theorem keysNode_of_loadKeys {here : Location} {d e : Desk} {keys : List LocalKey}
    (ht : d.disk.Regular) (hreach : d.disk.Reaches here (keysPath trustDir))
    (hrefuse : refuse? (keysPath trustDir) = none)
    (h : Step.run (loadKeys here trustDir) d = (.ok keys, e)) :
    KeysNode (d.disk.find? (Path.place here (keysPath trustDir))) := by
  obtain ⟨found, d', hfound, h⟩ := run_bind_ok h
  obtain ⟨hleads, rfl⟩ := Prod.mk.inj (run_present.symm.trans hfound)
  obtain rfl := Except.ok.inj hleads
  split at h
  · obtain ⟨data, text, hdata, htext, hread⟩ := told_of_readFile h
    obtain ⟨x, hfile⟩ := content_eq_some.1 hdata
    exact .inr ⟨data, x, keys, hfile, data, text, rfl, htext, hread⟩
  · rename_i hmissing
    refine .inl (Option.eq_none_iff_forall_ne_some.2 fun node hnode => hmissing ?_)
    exact leads_iff.2 ⟨node, (hreach.look_iff ht).2 ⟨hrefuse, hnode⟩⟩

theorem Within.keysNode (hc : Placed t o.here server trustDir shelf homes home) {d e : Desk}
    (hd : Within (plotOf hh repo) t d.disk) {keys : List LocalKey}
    (h : Step.run (loadKeys o.here trustDir) d = (.ok keys, e))
    (hrefuse : refuse? (keysPath trustDir) = none) :
    KeysNode (t.find? (Path.place o.here (keysPath trustDir))) := by
  have hthere := keysNode_of_loadKeys hd.regular
    (hc.reaches_keys.mono fun _ => hd.beside.directories) hrefuse h
  rcases (hd.beside _).shared ⟨home, hc.among, hc.addressed.keysPath⟩ with he | ⟨-, hbefore⟩
  · exact he ▸ hthere
  · exact hbefore

theorem keeps_init (hc : Placed t o.here server trustDir shelf homes home)
    (hrepo : Path.Straight repo) :
    Keeps (Within (plotOf hh repo) t) (init o server trustDir repo) := by
  refine ((quiet_requirePassphrase _ o).keeps _).bind fun _ => ?_
  refine ((quiet_requirePassphrase _ o).keeps _).bind fun _ => ?_
  refine ((quiet_requirePassphrase _ o).keeps _).bind fun _ => ?_
  refine ((quiet_present _ _).keeps _).bind fun found => ?_
  dsimp only
  split
  · exact (quiet_throw_bind _ _).keeps _
  · refine ((quiet_loadKeys _ _).keeps _).bind_of fun keys d e hd hload => ?_
    refine (keeps_makeKeys _ o repo firstRoles _ _).bind fun made => ?_
    refine (keeps_saveRecord hc _).bind fun _ => ?_
    refine (keeps_saveKeys hc (hd.keysNode hc hload) _).bind fun _ => ?_
    exact (keeps_sync hc hrepo _).bind fun _ => (quiet_print _).keeps _

theorem keeps_add (hc : Placed t o.here server trustDir shelf homes home)
    (hrepo : Path.Straight repo) (name file : String) :
    Keeps (Within (plotOf hh repo) t) (add o trustDir repo name file) := by
  refine ((quiet_look _).keeps _).bind fun data => ?_
  refine ((quiet_loadStaged _ _ _).keeps _).bind fun staged => ?_
  exact (keeps_saveStaged hc hrepo _).bind fun _ => (quiet_print _).keeps _

theorem keeps_publish (hc : Placed t o.here server trustDir shelf homes home)
    (hrepo : Path.Straight repo) :
    Keeps (Within (plotOf hh repo) t) (publish o server trustDir repo) := by
  refine ((quiet_loadRecord _ _ _).keeps _).bind fun r => ?_
  refine ((quiet_loadStaged _ _ _).keeps _).bind fun staged => ?_
  split
  · exact ((quiet_print _).keeps _).bind fun _ => keeps_sync hc hrepo _
  · refine ((quiet_countOn r).keeps _).bind fun _ => (keeps_saveRecord hc _).bind fun _ => ?_
    refine (keeps_removeFile (own_staged hc hrepo)).bind fun _ => ?_
    exact ((quiet_print _).keeps _).bind fun _ => keeps_sync hc hrepo _

theorem keeps_list (hc : Placed t o.here server trustDir shelf homes home)
    (hrepo : Path.Straight repo) :
    Keeps (Within (plotOf hh repo) t) (list o server trustDir repo) := by
  refine ((quiet_loadRecord _ _ _).keeps _).bind fun r => (keeps_sync hc hrepo _).bind fun _ => ?_
  refine ((quiet_print _).keeps _).bind fun _ => ((quiet_look _).keeps _).bind fun stale => ?_
  split
  · exact (quiet_pure _).keeps _
  · exact (quiet_print _).keeps _

theorem keeps_rotateRoot (hc : Placed t o.here server trustDir shelf homes home)
    (hrepo : Path.Straight repo) :
    Keeps (Within (plotOf hh repo) t) (rotateRoot o server trustDir repo) := by
  refine ((quiet_loadRecord _ _ _).keeps _).bind fun r => ?_
  refine ((quiet_loadKeys _ _).keeps _).bind_of fun keys d e hd hload => ?_
  refine ((quiet_requirePassphrase _ o).keeps _).bind fun _ => ?_
  refine ((quiet_countOn r).keeps _).bind fun _ => ?_
  refine (keeps_newKey _ o).bind fun id => (keeps_saveRecord hc _).bind fun _ => ?_
  exact (keeps_saveKeys hc (hd.keysNode hc hload) _).bind fun _ => keeps_sync hc hrepo _

theorem keeps_rotateOther (hc : Placed t o.here server trustDir shelf homes home)
    (hrepo : Path.Straight repo) (role : String) (managed : Bool) :
    Keeps (Within (plotOf hh repo) t) (rotateOther o server trustDir repo role managed) := by
  refine ((quiet_loadRecord _ _ _).keeps _).bind fun r => ?_
  refine ((quiet_loadKeys _ _).keeps _).bind_of fun keys d e hd hload => ?_
  refine ((quiet_countOn r).keeps _).bind fun _ => ?_
  refine (keeps_newKey _ o).bind fun id => (keeps_saveRecord hc _).bind fun _ => ?_
  exact (keeps_saveKeys hc (hd.keysNode hc hload) _).bind fun _ => keeps_sync hc hrepo _

theorem keeps_rotate (hc : Placed t o.here server trustDir shelf homes home)
    (hrepo : Path.Straight repo) (role : String) (flags : List String) :
    Keeps (Within (plotOf hh repo) t) (rotate o server trustDir repo role flags) := by
  unfold rotate
  dsimp only
  split
  · refine (quiet_readLine.keeps _).bind fun answer => ?_
    split
    · refine ((quiet_login _ _).keeps _).bind fun _ => ?_
      exact (keeps_rotateRoot hc hrepo).bind fun _ => (quiet_print _).keeps _
    · exact (quiet_throw_bind _ _).keeps _
  · refine ((quiet_login _ _).keeps _).bind fun _ => ?_
    exact (keeps_rotateOther hc hrepo role _).bind fun _ => (quiet_print _).keeps _

theorem keeps_command (hc : Placed t o.here server trustDir shelf homes home)
    (hrepo : Path.Straight repo) {words : List String}
    (hwords : (Errand.ofWords words).repo? = some repo) :
    Keeps (Within (plotOf hh repo) t) (command o server trustDir words) := by
  unfold command
  split
  case h_1 =>
    obtain rfl := Option.some.inj hwords
    exact ((quiet_login _ _).keeps _).bind fun _ => keeps_init hc hrepo
  case h_2 =>
    obtain rfl := Option.some.inj hwords
    exact keeps_add hc hrepo _ _
  case h_3 =>
    obtain rfl := Option.some.inj hwords
    exact ((quiet_login _ _).keeps _).bind fun _ => keeps_publish hc hrepo
  case h_4 =>
    obtain rfl := Option.some.inj hwords
    exact ((quiet_login _ _).keeps _).bind fun _ => keeps_list hc hrepo
  case h_5 => exact (quiet_verify o server _ _ _).keeps _
  case h_6 => exact (quiet_listKeys o trustDir).keeps _
  case h_7 =>
    obtain rfl := Option.some.inj hwords
    exact keeps_rotate hc hrepo _ _
  case h_8 => exact (quiet_throw _).keeps _

end Commands

/-! ## Requests -/

/-- A request about a repository, by a client at work on a tree. -/
structure Concerns (t : Tree) (shelf : Location) (homes : Location → Prop) (repo : String)
    (request : Request) : Prop where
  about : (errandOf request).repo? = some repo
  straight : Path.Straight repo
  working : t.find? request.here = some .directory
  directed : ∃ home, homes home ∧ Directed t request shelf home

section Requests

variable {keyName : Nat → String} {shelf : Location} {homes : Location → Prop} {t : Tree}
  {repo : String} {request : Request}

theorem run_disk (keyName : Nat → String) (request : Request) (made : Nat) (t : Tree) :
    (run keyName request made t).2.2 =
      (Step.run (answer (officeOf keyName request) request.args) (deskOf request made t)).2.disk := by
  simp only [run, officeOf, deskOf]
  split <;>
  · rename_i h
    rw [h]

/-- The tree after a request is the one before it, but for the repository's plot. -/
theorem Concerns.within (h : Concerns t shelf homes repo request) (hh : Separate shelf homes)
    (ht : t.Regular) (keyName : Nat → String) (made : Nat) :
    Within (plotOf hh repo) t (run keyName request made t).2.2 := by
  obtain ⟨home, hhome, hdirected⟩ := h.directed
  have habout := h.about
  rw [run_disk]
  have hstart : Within (plotOf hh repo) t (deskOf request made t).disk := ⟨ht, .refl _ t⟩
  unfold answer
  split
  · exact (quiet_plumbing _ _ _).keeps _ _ hstart
  · rename_i f words _ hread
    rw [errandOf, hread] at habout
    split
    · exact (quiet_throw _).keeps _ _ hstart
    · rename_i trustDir htrustDir
      -- The server is known once it has been opened, on the tree as it still is.
      rw [run_bind]
      split
      · rename_i e hopen
        rw [((quiet_openServer _ _).at hopen (.refl _)).disk]
        exact hstart
      · rename_i server e hopen
        have he := ((quiet_openServer _ _).at hopen (.refl _)).disk
        have ha : Addressed t request.here server trustDir shelf home :=
          hdirected trustDir server _ e (by rw [hread]; exact htrustDir) rfl
            (by rw [hread]; exact hopen)
        have hc : Placed t request.here server trustDir shelf homes home :=
          ⟨ht, h.working, ha, hhome⟩
        refine ((keeps_command (o := officeOf keyName request) hc h.straight habout).bind fun _ =>
          (quiet_pure 0).keeps _) e ?_
        rw [he]
        exact hstart

end Requests

end Notary
end TrustTrial
