import TrustTrial.Proofs.Twins

/-!
# TrustTrial.Proofs.Neighbours

Repositories on one server do not notice each other, as long as they have no file in common. A request
about a repository ends in the same way, and leaves the same, whether or not there have been requests
about another one (`Parallel.unnoticed`). Names of which none has a slash are kept apart by that; but
since slashes are replaced in the name of a record, two others may share it.
-/

namespace TrustTrial
namespace Notary

open Disk Disk.Tree Step

/-! ## Where a client looks -/

section Seen

variable {shelf home : Location} {homes : Location → Prop} {hh : Separate shelf homes} {s : Tree}
  {here : Location} {server trustDir theirs repo name : String}

theorem Placed.seen_shelf (hc : Placed s here server trustDir shelf homes home)
    (hname : Path.Proper name) (hne : name ≠ recordName theirs) :
    Seen (plotOf hh theirs) s here (Path.join server name) := by
  have hplace : Path.place here (Path.join server name) = shelf ++ [name] := by
    rw [Path.place_join_name hname, hc.addressed.server_place]
  refine ⟨hc.reaches_shelf hname, ?_, ?_⟩
  · rw [hplace]
    exact open_shelf hh hne
  · rw [hplace]
    exact not_shared_shelf hh _

theorem Placed.seen_record (hc : Placed s here server trustDir shelf homes home)
    (hmix : Unmixed theirs repo) : Seen (plotOf hh theirs) s here (recordPath server repo) :=
  hc.seen_shelf (proper_recordName repo) hmix.records.symm

theorem Placed.seen_login (hc : Placed s here server trustDir shelf homes home)
    (hlogin : theirs ≠ "login") : Seen (plotOf hh theirs) s here (loginPath server) :=
  hc.seen_shelf (Path.Plain.proper (by decide)) (recordName_ne_login hlogin).symm

theorem Placed.seen_stale (hc : Placed s here server trustDir shelf homes home) :
    Seen (plotOf hh theirs) s here (stalePath server) :=
  hc.seen_shelf (Path.Plain.proper (by decide)) (recordName_ne_stale theirs).symm

theorem Placed.seen_staged (hc : Placed s here server trustDir shelf homes home)
    (hrepo : Path.Straight repo) (hmix : Unmixed theirs repo) :
    Seen (plotOf hh theirs) s here (stagedPath trustDir repo) := by
  have hplace := (hc.addressed.stagedPath hrepo).trans (stagedPlace_eq home repo)
  refine ⟨hc.reaches_staged hrepo, ?_, ?_⟩
  · rw [hplace]
    exact open_repoFile hh hmix hc.among List.mem_cons_self
  · rw [hplace]
    exact not_shared_file hh hc.among _

theorem Placed.seen_root (hc : Placed s here server trustDir shelf homes home)
    (hrepo : Path.Straight repo) (hmix : Unmixed theirs repo) :
    Seen (plotOf hh theirs) s here (rootPath trustDir repo) := by
  have hplace := (hc.addressed.rootPath hrepo).trans (rootPlace_eq home repo)
  refine ⟨hc.reaches_root hrepo, ?_, ?_⟩
  · rw [hplace]
    exact open_repoFile hh hmix hc.among (List.mem_cons_of_mem _ List.mem_cons_self)
  · rw [hplace]
    exact not_shared_file hh hc.among _

end Seen

/-! ## Loading and saving -/

section Loading

variable {α : Type} {p : Plot} {s : Tree} {here : Location} {path server trustDir repo : String}
  {d : Desk}

theorem agrees_readList (hs : Seen p s here path) (shape : Json.Shape)
    (ofValue? : Json.Value → Option α) : Agrees p s (readList here shape ofValue? path) := by
  refine agrees_present_bind hs fun found d e h hlook => ?_
  split
  · rename_i hfound
    exact abreast_readFile h (hlook hfound) _ _
  · exact agrees_pure _ d e h

theorem agrees_loadRecord (hs : Seen p s here (recordPath server repo)) :
    Agrees p s (loadRecord here server repo) := by
  refine agrees_present_bind hs fun found d e h hlook => ?_
  split
  · rename_i hfound
    exact abreast_readFile h (hlook hfound) _ _
  · exact agrees_throw _ d e h

theorem agrees_login (hs : Seen p s here (loginPath server)) : Agrees p s (login here server) := by
  refine agrees_present_bind hs fun found d e h hlook => ?_
  split
  · rename_i hfound
    refine (abreast_readFile h (hlook hfound) _ _).bind fun expected => ?_
    refine agrees_readLine.bind fun username => agrees_readLine.bind fun password => ?_
    split
    · exact agrees_pure _
    · exact agrees_throw _
  · exact agrees_pure _ d e h

/-- A server that has fallen behind has done so for everybody. -/
theorem isStale_near {t u : Tree} (h : Near p s t u) (hs : Seen p s here (stalePath server)) :
    isStale t here server trustDir = isStale u here server trustDir := by
  rw [isStale, isStale]
  by_cases hleads : u.leads here (stalePath server) = true
  · rw [readText_congr (h.look_eq hs hleads)]
  · obtain ⟨fault, hu⟩ := readText_of_not_leads hleads
    rw [← h.leads_eq hs] at hleads
    obtain ⟨fault', ht⟩ := readText_of_not_leads hleads
    simp only [ht, hu]

/-- Where there are keys or nothing, keys are loaded. -/
theorem run_loadKeys (hd : d.disk.Regular) (hreach : d.disk.Reaches here (keysPath trustDir))
    (hnode : KeysNode (d.disk.find? (Path.place here (keysPath trustDir)))) :
    ∃ keys, Step.run (loadKeys here trustDir) d = (.ok keys, d) := by
  rw [loadKeys, readList, run_bind, run_present]
  dsimp only
  split
  · rename_i hleads
    obtain ⟨node, hlook⟩ := leads_iff.1 hleads
    obtain ⟨-, hfound⟩ := (hreach.look_iff hd).1 hlook
    rcases hnode with hnone | ⟨data, x, keys, hfile, bytes, text, hbytes, htext, hread⟩
    · rw [hnone] at hfound
      cases hfound
    · obtain rfl := Option.some.inj (hfound.symm.trans hfile)
      obtain rfl := Option.some.inj hbytes
      refine ⟨keys, run_readFile ?_ hread⟩
      simp only [Tree.readText, Tree.readBytes, hlook, htext]
  · exact ⟨[], rfl⟩

end Loading

section Sharing

variable {shelf home : Location} {homes : Location → Prop} {hh : Separate shelf homes} {s : Tree}
  {here : Location} {server trustDir theirs repo : String} {d e : Desk}

/-- The keys that are loaded may differ, but they are loaded on both desks or on none. -/
theorem abreast_loadKeys (hc : Placed s here server trustDir shelf homes home)
    (h : Twin (plotOf hh theirs) s d e) : Abreast (plotOf hh theirs) s (fun _ _ => True)
      (loadKeys here trustDir) (loadKeys here trustDir) d e := by
  have hright := hc.reaches_keys.mono h.near.kept
  have hleft := hright.mono fun _ => h.near.beside.directories
  rcases (h.near.beside _).shared ⟨home, hc.among, hc.addressed.keysPath⟩ with he | ⟨ht, hu⟩
  · have hlook : ∀ node, d.disk.look here (keysPath trustDir) = .ok node ↔
        e.disk.look here (keysPath trustDir) = .ok node := by
      intro node
      rw [hleft.look_iff h.near.left, hright.look_iff h.near.right, he]
    have hleads : d.disk.leads here (keysPath trustDir) = e.disk.leads here (keysPath trustDir) := by
      rw [Bool.eq_iff_iff, leads_iff, leads_iff]
      exact exists_congr hlook
    have hpresent : Abreast (plotOf hh theirs) s Eq (present here (keysPath trustDir))
        (present here (keysPath trustDir)) d e := abreast_look h (congrArg Except.ok hleads)
    refine hpresent.bind_of fun found found' d' e' hd he hsame _ => ?_
    cases hd
    cases he
    rw [← hsame]
    split
    · rename_i hfound
      obtain ⟨node, hnode⟩ := leads_iff.1 hfound
      have hsees := hnode.trans ((hlook node).1 hnode).symm
      exact (abreast_readFile h hsees _ _).mono fun _ _ _ => trivial
    · exact .well rfl rfl trivial h
  · obtain ⟨keys, hkeys⟩ := run_loadKeys h.near.left hleft ht
    obtain ⟨keys', hkeys'⟩ := run_loadKeys h.near.right hright hu
    exact .well hkeys hkeys' trivial h

theorem abreast_saveKeys (hc : Placed s here server trustDir shelf homes home)
    (h : Twin (plotOf hh theirs) s d e) (keys keys' : List LocalKey) :
    Abreast (plotOf hh theirs) s Eq (saveKeys here trustDir keys) (saveKeys here trustDir keys')
      d e := by
  have hshared : (plotOf hh theirs).shared (Path.place here (keysPath trustDir)) :=
    ⟨home, hc.among, hc.addressed.keysPath⟩
  refine abreast_writeFile h hc.reaches_keys ?_ (fun hnot => absurd hshared hnot) fun _ =>
    ⟨keysNode_printed keys, keysNode_printed keys'⟩
  rw [hc.addressed.keysPath]
  exact open_keys hh hc.among

/-- Staged additions that have been loaded are still there when the record has been saved. -/
theorem readBytes_staged (hc : Placed s here server trustDir shelf homes home)
    (hh : Separate shelf homes) (hrepo : Path.Straight repo)
    {e e' e'' : Desk} {staged : List Staged} (he : e.disk.Regular) (he'' : e''.disk.Regular)
    (hkept : ∀ place, s.find? place = some .directory → e.disk.find? place = some .directory)
    (hkept'' : ∀ place, s.find? place = some .directory → e''.disk.find? place = some .directory)
    (hload : Step.run (loadStaged here trustDir repo) e = (.ok staged, e')) (hsome : staged ≠ [])
    {r : Record} (hsave : Step.run (saveRecord here server repo r) e' = (.ok (), e'')) :
    ∃ data, e''.disk.readBytes here (stagedPath trustDir repo) = .ok data := by
  have hquiet := ((quiet_loadStaged here trustDir repo).at hload (.refl e)).disk
  obtain ⟨found, d', hfound, hload⟩ := run_bind_ok hload
  obtain ⟨hleads, rfl⟩ := Prod.mk.inj (run_present.symm.trans hfound)
  split at hload
  · rename_i hthere
    obtain ⟨data, text, hdata, -, -⟩ := told_of_readFile hload
    obtain ⟨node, hlook⟩ := leads_iff.1 ((Except.ok.inj hleads).trans hthere)
    obtain ⟨hrefuse, -⟩ := (((hc.reaches_staged hrepo).mono hkept).look_iff he).1 hlook
    have hcharted : e'.Charted e.disk.content e'.made := ⟨hquiet ▸ he, by rw [hquiet], rfl⟩
    obtain ⟨-, hsaved⟩ := hcharted.writeFile hsave
    have hplace : Path.place here (stagedPath trustDir repo) ≠
        Path.place here (recordPath server repo) := by
      rw [hc.addressed.recordPath, hc.addressed.stagedPath hrepo, stagedPlace_eq]
      exact (hh.ne_shelf hc.among).symm
    obtain ⟨x, hfile⟩ := content_eq_some.1
      ((congrFun hsaved.content _).trans ((Contents.put_of_ne hplace _ _).trans hdata))
    have hlook'' := (((hc.reaches_staged hrepo).mono hkept'').look_iff he'').2 ⟨hrefuse, hfile⟩
    exact ⟨data, by rw [Tree.readBytes, hlook'']⟩
  · cases hload
    exact absurd rfl hsome

end Sharing

/-! ## Commands -/

section Commands

variable {shelf home : Location} {homes : Location → Prop} {hh : Separate shelf homes} {s : Tree}
  {o : Office} {server trustDir theirs repo : String}

theorem agrees_sync (hc : Placed s o.here server trustDir shelf homes home)
    (hrepo : Path.Straight repo) (hmix : Unmixed theirs repo) (r : Record) :
    Agrees (plotOf hh theirs) s (sync o.here trustDir repo r) :=
  agrees_writeFile (hc.seen_root hrepo hmix) _

theorem agrees_saveRecord (hc : Placed s o.here server trustDir shelf homes home)
    (hmix : Unmixed theirs repo) (r : Record) :
    Agrees (plotOf hh theirs) s (saveRecord o.here server repo r) :=
  agrees_writeFile (hc.seen_record hmix) _

theorem agrees_init (hc : Placed s o.here server trustDir shelf homes home)
    (hrepo : Path.Straight repo) (hmix : Unmixed theirs repo) :
    Agrees (plotOf hh theirs) s (init o server trustDir repo) := by
  refine (agrees_requirePassphrase o _).bind fun _ => (agrees_requirePassphrase o _).bind fun _ => ?_
  refine (agrees_requirePassphrase o _).bind fun _ => ?_
  refine agrees_present_bind (hc.seen_record hmix) fun found d e h _ => ?_
  dsimp only
  split
  · exact agrees_throw_bind _ _ d e h
  · refine (abreast_loadKeys hc h).bind_of fun keys keys' d e _ _ _ h => ?_
    refine (abreast_makeKeys h o repo firstRoles _ _ _).bind_of ?_
    rintro ⟨r, made⟩ ⟨r', made'⟩ d e - - hsame h
    obtain rfl : r = r' := hsame
    refine (agrees_saveRecord hc hmix r.bump d e h).bind_of fun _ _ d e _ _ _ h => ?_
    refine (abreast_saveKeys hc h made made').bind fun _ => ?_
    exact (agrees_sync hc hrepo hmix _).bind fun _ => agrees_print _

theorem agrees_add (hc : Placed s o.here server trustDir shelf homes home)
    (hrepo : Path.Straight repo) (hmix : Unmixed theirs repo) (name : String) {file : String}
    (hfile : Aside (plotOf hh theirs) s o.here file) :
    Agrees (plotOf hh theirs) s (add o trustDir repo name file) := by
  refine (agrees_readBytes hc.working hfile).bind fun data => ?_
  refine (agrees_readList (hc.seen_staged hrepo hmix) _ _).bind fun staged => ?_
  exact (agrees_writeFile (hc.seen_staged hrepo hmix) _).bind fun _ => agrees_print _

theorem agrees_publish (hc : Placed s o.here server trustDir shelf homes home)
    (hrepo : Path.Straight repo) (hmix : Unmixed theirs repo) :
    Agrees (plotOf hh theirs) s (publish o server trustDir repo) := by
  refine (agrees_loadRecord (hc.seen_record hmix)).bind fun r d e h => ?_
  refine (agrees_readList (hc.seen_staged hrepo hmix) _ _ d e h).bind_of ?_
  rintro staged _ d' e' - hload rfl h'
  split
  · exact ((agrees_print _).bind fun _ => agrees_sync hc hrepo hmix r) d' e' h'
  · rename_i hsome
    refine (agrees_countOn r d' e' h').bind_of fun _ _ d₁ e₁ _ hcount _ h₁ => ?_
    obtain ⟨-, rfl⟩ := run_countOn_ok hcount
    refine (agrees_saveRecord hc hmix _ d₁ _ h₁).bind_of ?_
    rintro _ _ d'' e'' - hsave - h''
    obtain ⟨data, hdata⟩ := readBytes_staged hc hh hrepo h.near.right h''.near.right h.near.kept
      h''.near.kept hload (by simpa using hsome) hsave
    refine (abreast_removeFile h'' (hc.seen_staged hrepo hmix) hdata).bind fun _ => ?_
    exact (agrees_print _).bind fun _ => agrees_sync hc hrepo hmix _

theorem agrees_list (hc : Placed s o.here server trustDir shelf homes home)
    (hrepo : Path.Straight repo) (hmix : Unmixed theirs repo) :
    Agrees (plotOf hh theirs) s (list o server trustDir repo) := by
  refine (agrees_loadRecord (hc.seen_record hmix)).bind fun r => ?_
  refine (agrees_sync hc hrepo hmix r).bind fun _ => (agrees_print _).bind fun _ d e h => ?_
  refine (abreast_look h (by rw [isStale_near h.near hc.seen_stale])).bind fun stale => ?_
  split
  · exact agrees_pure _
  · exact agrees_print _

theorem agrees_verify (hc : Placed s o.here server trustDir shelf homes home)
    (hmix : Unmixed theirs repo) (name : String) {file : String}
    (hfile : Aside (plotOf hh theirs) s o.here file) :
    Agrees (plotOf hh theirs) s (verify o server repo name file) := by
  refine (agrees_loadRecord (hc.seen_record hmix)).bind fun r => ?_
  split
  · exact agrees_throw _
  · refine (agrees_readBytes hc.working hfile).bind fun data => ?_
    split
    · exact agrees_pure _
    · exact agrees_throw _

theorem agrees_rotateRoot (hc : Placed s o.here server trustDir shelf homes home)
    (hrepo : Path.Straight repo) (hmix : Unmixed theirs repo) :
    Agrees (plotOf hh theirs) s (rotateRoot o server trustDir repo) := by
  refine (agrees_loadRecord (hc.seen_record hmix)).bind fun r d e h => ?_
  refine (abreast_loadKeys hc h).bind_of fun keys keys' d e _ _ _ h => ?_
  refine (agrees_requirePassphrase o _ d e h).bind_of fun _ _ d e _ _ _ h => ?_
  refine (agrees_countOn r d e h).bind_of fun _ _ d e _ _ _ h => ?_
  refine (agrees_newKey o d e h).bind_of fun id id' d e _ _ hid h => ?_
  rw [← hid]
  refine (agrees_saveRecord hc hmix _ d e h).bind_of fun _ _ d e _ _ _ h => ?_
  exact (abreast_saveKeys hc h _ _).bind fun _ => agrees_sync hc hrepo hmix _

theorem agrees_rotateOther (hc : Placed s o.here server trustDir shelf homes home)
    (hrepo : Path.Straight repo) (hmix : Unmixed theirs repo) (role : String) (managed : Bool) :
    Agrees (plotOf hh theirs) s (rotateOther o server trustDir repo role managed) := by
  refine (agrees_loadRecord (hc.seen_record hmix)).bind fun r d e h => ?_
  refine (abreast_loadKeys hc h).bind_of fun keys keys' d e _ _ _ h => ?_
  refine (agrees_countOn r d e h).bind_of fun _ _ d e _ _ _ h => ?_
  refine (agrees_newKey o d e h).bind_of fun id id' d e _ _ hid h => ?_
  rw [← hid]
  refine (agrees_saveRecord hc hmix _ d e h).bind_of fun _ _ d e _ _ _ h => ?_
  exact (abreast_saveKeys hc h _ _).bind fun _ => agrees_sync hc hrepo hmix _

theorem agrees_rotate (hc : Placed s o.here server trustDir shelf homes home)
    (hrepo : Path.Straight repo) (hmix : Unmixed theirs repo) (hlogin : theirs ≠ "login")
    (role : String) (flags : List String) :
    Agrees (plotOf hh theirs) s (rotate o server trustDir repo role flags) := by
  unfold rotate
  dsimp only
  split
  · refine agrees_readLine.bind fun answer => ?_
    split
    · refine (agrees_login (hc.seen_login hlogin)).bind fun _ => ?_
      exact (agrees_rotateRoot hc hrepo hmix).bind fun _ => agrees_print _
    · exact agrees_throw_bind _ _
  · refine (agrees_login (hc.seen_login hlogin)).bind fun _ => ?_
    exact (agrees_rotateOther hc hrepo hmix role _).bind fun _ => agrees_print _

/-- The file that an errand reads by its path, if any. -/
def Errand.file? : Errand → Option String
  | .add _ _ file | .verify _ _ file => some file
  | _ => none

theorem agrees_command (hc : Placed s o.here server trustDir shelf homes home)
    (hrepo : Path.Straight repo) (hmix : Unmixed theirs repo) (hlogin : theirs ≠ "login")
    {words : List String} (hwords : (Errand.ofWords words).repo? = some repo)
    (hfile : ∀ file ∈ (Errand.ofWords words).file?, Aside (plotOf hh theirs) s o.here file) :
    Agrees (plotOf hh theirs) s (command o server trustDir words) := by
  unfold command
  split
  case h_1 =>
    obtain rfl := Option.some.inj hwords
    exact (agrees_login (hc.seen_login hlogin)).bind fun _ => agrees_init hc hrepo hmix
  case h_2 =>
    obtain rfl := Option.some.inj hwords
    exact agrees_add hc hrepo hmix _ (hfile _ rfl)
  case h_3 =>
    obtain rfl := Option.some.inj hwords
    exact (agrees_login (hc.seen_login hlogin)).bind fun _ => agrees_publish hc hrepo hmix
  case h_4 =>
    obtain rfl := Option.some.inj hwords
    exact (agrees_login (hc.seen_login hlogin)).bind fun _ => agrees_list hc hrepo hmix
  case h_5 =>
    obtain rfl := Option.some.inj hwords
    exact agrees_verify hc hmix _ (hfile _ rfl)
  case h_6 => cases hwords
  case h_7 =>
    obtain rfl := Option.some.inj hwords
    exact agrees_rotate hc hrepo hmix hlogin _ _
  case h_8 => exact agrees_throw _

end Commands

/-! ## Requests -/

/-- The files that a request reads by their paths: the configuration of an embedded server, and what
is to be added or verified. -/
def namedFiles (request : Request) : List String :=
  (match Flags.read request.args with
    | (⟨none, true, some config, _⟩, _) => [config]
    | _ => []) ++ (errandOf request).file?.toList

/-- A request about another repository, that reads nothing by path that is theirs. -/
structure Bystander {shelf : Location} {homes : Location → Prop} (hh : Separate shelf homes)
    (theirs : String) (t : Tree) (request : Request) : Prop where
  concerns : ∃ repo, Unmixed theirs repo ∧ Concerns t shelf homes repo request
  aside : ∀ path ∈ namedFiles request, Aside (plotOf hh theirs) t request.here path

section Requests

variable {shelf : Location} {homes : Location → Prop} {hh : Separate shelf homes} {theirs : String}
  {s t u : Tree} {request : Request} {keyName : Nat → String} {d e : Desk}

theorem agrees_openServer {p : Plot} {here : Location} {f : Flags}
    (hhere : s.find? here = some .directory)
    (hconfig : f.server = none → f.embedded = true → ∀ config ∈ f.config, Aside p s here config) :
    Agrees p s (openServer here f) := by
  unfold openServer
  split
  · split
    · exact agrees_throw _
    · exact agrees_pure _
  · rename_i hserver hembedded
    split
    · exact agrees_throw _
    · rename_i config hsome
      intro d e h
      have hlook := h.near.look_aside hhere (hconfig hserver hembedded config hsome)
      refine (abreast_look h (by rw [readText_congr hlook])).bind fun text => ?_
      split
      · exact agrees_throw _
      · split
        · exact agrees_throw _
        · exact agrees_pure _
  · exact agrees_throw _

theorem Bystander.abreast (h : Bystander hh theirs s request) (hs : s.Regular)
    (hlogin : theirs ≠ "login") (htwin : Twin (plotOf hh theirs) s d e) (he : e.disk = s)
    (keyName : Nat → String) :
    Abreast (plotOf hh theirs) s Eq (answer (officeOf keyName request) request.args)
      (answer (officeOf keyName request) request.args) d e := by
  obtain ⟨repo, hmix, hconcerns⟩ := h.concerns
  obtain ⟨home, hhome, hdirected⟩ := hconcerns.directed
  have habout := hconcerns.about
  have haside := h.aside
  unfold answer
  split
  · rename_i f words hread
    rw [errandOf_plumbing (congrArg Prod.snd hread)] at habout
    cases habout
  · rename_i f words _ hread
    rw [errandOf, hread] at habout
    rw [namedFiles, errandOf, hread] at haside
    split
    · exact agrees_throw _ d e htwin
    · rename_i trustDir htrustDir
      have hconfig : f.server = none → f.embedded = true →
          ∀ config ∈ f.config, Aside (plotOf hh theirs) s request.here config := by
        intro hserver hembedded config hconfig
        refine haside config (List.mem_append_left _ ?_)
        obtain ⟨server, embedded, config', dir⟩ := f
        cases hserver
        cases hembedded
        cases hconfig
        exact List.mem_cons_self
      refine (agrees_openServer hconcerns.working hconfig d e htwin).bind_of ?_
      rintro server _ d' e' - hopen rfl htwin'
      have ha : Addressed s request.here server trustDir shelf home :=
        hdirected trustDir server e e' (by rw [hread]; exact htrustDir) he
          (by rw [hread]; exact hopen)
      have hc : Placed s request.here server trustDir shelf homes home :=
        ⟨hs, hconcerns.working, ha, hhome⟩
      refine ((agrees_command (o := officeOf keyName request) hc hconcerns.straight hmix hlogin habout
        fun file hfile => haside file (List.mem_append_right _ ?_)).bind fun _ => agrees_pure 0)
        d' e' htwin'
      exact Option.mem_toList.2 hfile

/-- A request about another repository ends in the same way on both trees. -/
theorem Bystander.alike (h : Bystander hh theirs u request) (hlogin : theirs ≠ "login")
    (hbeside : Beside (plotOf hh theirs) t u) (ht : t.Regular) (hu : u.Regular)
    (keyName : Nat → String) (made : Nat) :
    (run keyName request made t).1 = (run keyName request made u).1 ∧
      Near (plotOf hh theirs) u (run keyName request made t).2.2 (run keyName request made u).2.2 := by
  have htwin : Twin (plotOf hh theirs) u (deskOf request made t) (deskOf request made u) :=
    ⟨⟨hbeside, ht, hu, fun _ => id⟩, rfl, rfl, rfl⟩
  have hanswer := h.abreast hu hlogin htwin rfl keyName
  simp only [officeOf, deskOf] at hanswer
  cases hanswer with
  | well hleft hright hsame hend =>
    simp only [run, hleft, hright, hsame, hend.output]
    exact ⟨trivial, hend.near⟩
  | ill hleft hright hend =>
    simp only [run, hleft, hright, hend.output]
    exact ⟨trivial, hend.near⟩

/-! ## Histories -/

/-- The tree after requests about a repository and others, and the tree after the others alone. -/
inductive Parallel (keyName : Nat → String) {shelf : Location} {homes : Location → Prop}
    (hh : Separate shelf homes) (theirs : String) (s : Tree) : Tree → Tree → Prop where
  | start : Parallel keyName hh theirs s s s
  | theirs {t u : Tree} {request : Request} (made : Nat) : Parallel keyName hh theirs s t u →
      Concerns t shelf homes theirs request →
      Parallel keyName hh theirs s (run keyName request made t).2.2 u
  | others {t u : Tree} {request : Request} (made : Nat) : Parallel keyName hh theirs s t u →
      Bystander hh theirs u request →
      Parallel keyName hh theirs s (run keyName request made t).2.2 (run keyName request made u).2.2

theorem Parallel.beside (h : Parallel keyName hh theirs s t u) (hs : s.Regular)
    (hlogin : theirs ≠ "login") :
    Beside (plotOf hh theirs) t u ∧ t.Regular ∧ u.Regular := by
  induction h with
  | start => exact ⟨.refl _ s, hs, hs⟩
  | theirs made _ hconcerns ih =>
    obtain ⟨hbeside, ht, hu⟩ := ih
    obtain ⟨hregular, hkept⟩ := hconcerns.within hh ht keyName made
    exact ⟨hkept.trans hbeside, hregular, hu⟩
  | others made _ hbystander ih =>
    obtain ⟨hbeside, ht, hu⟩ := ih
    obtain ⟨-, hnear⟩ := hbystander.alike hlogin hbeside ht hu keyName made
    exact ⟨hnear.beside, hnear.left, hnear.right⟩

/-- Whoever asks about another repository is told the same as if nobody had ever asked about theirs,
and the record of the other one is the same, or it is not there either. -/
theorem Parallel.unnoticed (h : Parallel keyName hh theirs s t u) (hs : s.Regular)
    (hlogin : theirs ≠ "login") :
    (∀ repo, recordName theirs ≠ recordName repo →
      t.find? (recordPlace shelf repo) = u.find? (recordPlace shelf repo)) ∧
    ∀ request made, Bystander hh theirs u request →
      (run keyName request made t).1 = (run keyName request made u).1 := by
  obtain ⟨hbeside, ht, hu⟩ := h.beside hs hlogin
  refine ⟨fun repo hne => ?_, fun request made hbystander => ?_⟩
  · exact (hbeside _).same (open_shelf hh hne.symm) (not_shared_shelf hh _)
  · exact (hbystander.alike hlogin hbeside ht hu keyName made).1

end Requests

/-! ## Samples -/

/-- A request from a trust directory, on the demonstration's server. -/
def requestFrom (trustDir : String) (words : List String) : Request :=
  { demoRequest [] "" with args := demoRunner.arguments (.new trustDir words) }

/-- The trust directories of the two clients. -/
def pairHomes (home : Location) : Prop := home = ["home"] ∨ home = ["other"]

theorem separate_pair : Separate ["srv"] pairHomes where
  apart := by
    rintro _ (rfl | rfl)
    · exact ⟨by decide, by decide⟩
    · exact ⟨by decide, by decide⟩
  single := by
    rintro _ _ (rfl | rfl) (rfl | rfl) hp
    · rfl
    · exact absurd (List.cons_prefix_cons.1 hp).1 (by decide)
    · exact absurd (List.cons_prefix_cons.1 hp).1 (by decide)
    · rfl

theorem concerns_pair {t : Tree} {trustDir repo : String} {home : Location} {words : List String}
    (hwords : ∀ w ∈ words.head?, w ∉ ["-s", "-c", "-d", "-D", "debug"])
    (habout : (Errand.ofWords words).repo? = some repo) (hrepo : Path.Straight repo)
    (hhome : pairHomes home) (hplace : Path.place [] trustDir = home)
    (hdots : ".." ∉ Path.parts trustDir) :
    Concerns t ["srv"] pairHomes repo (requestFrom trustDir words) := by
  have hread : Flags.read (requestFrom trustDir words).args = (demoRunner.flags trustDir, words) :=
    read_request (i := .new trustDir words) rfl hwords
  refine ⟨?_, hrepo, rfl, home, hhome, directed_demo hread rfl hdots hplace⟩
  rw [errandOf, hread]
  exact habout

section Runs

variable {c : Visit} {v w : View} {words : List String} {made : Nat} {t : Tree}

theorem serves_demo (hserver : c.premises.server = "/srv") : Serves demoRunner c.premises := by
  change serverDir? "file:///srv" = some c.premises.server
  rw [hserver]
  decide

theorem goes_requestFrom (hc : c.Sound) (hoffice : c.premises.office = demoPremises.office)
    (hserver : c.premises.server = "/srv")
    (hwords : ∀ w ∈ words.head?, w ∉ ["-s", "-c", "-d", "-D", "debug"])
    (hgoes : c.Goes (command c.premises.office c.premises.server c.trustDir words) v () w)
    (hfits : c.Fits (deskOf (requestFrom c.trustDir words) made t) v) :
    ∃ d, run Main.keyName (requestFrom c.trustDir words) made t =
      (⟨w.output.toUTF8, "", some 0⟩, w.made, d.disk) ∧ c.Fits d w :=
  run_of_goes hoffice (goes_answer (r := demoRunner) (i := .new c.trustDir words) hc
    (serves_demo hserver) rfl hwords hgoes) hfits

theorem stops_requestFrom (hc : c.Sound) (hoffice : c.premises.office = demoPremises.office)
    (hserver : c.premises.server = "/srv")
    (hwords : ∀ w ∈ words.head?, w ∉ ["-s", "-c", "-d", "-D", "debug"])
    (hstops : c.Stops (command c.premises.office c.premises.server c.trustDir words) v)
    (hfits : c.Fits (deskOf (requestFrom c.trustDir words) made t) v) :
    (run Main.keyName (requestFrom c.trustDir words) made t).1.exit = some 1 :=
  run_of_stops hoffice (stops_answer (r := demoRunner) (i := .new c.trustDir words) hc
    (serves_demo hserver) rfl hwords hstops) hfits

end Runs

/-- After the demonstration's repository has been founded, the founder of another one is told what it
would have been told before. -/
theorem unnoticed_demo : ∃ t, Parallel Main.keyName separate_pair "demo" pairTree t pairTree ∧
    t.content (recordPlace ["srv"] "demo") = some demoRecord.printed ∧
    t.find? (recordPlace ["srv"] "spare") = pairTree.find? (recordPlace ["srv"] "spare") ∧
    (run Main.keyName (requestFrom "/other" ["init", "spare"]) 4 t).1 =
      (run Main.keyName (requestFrom "/other" ["init", "spare"]) 4 pairTree).1 := by
  have hfits : (demoVisit pairTree).Fits (deskOf (requestFrom "/home" ["init", "demo"]) 0 pairTree)
      ⟨none, .empty, 0, none, ""⟩ :=
    Visit.fits_start (by rfl) (housed_pairTree (.inl rfl)) _
  obtain ⟨output, hfounds⟩ := goes_demoFounding grounded_pairTree
  obtain ⟨d, hrun, hd⟩ :=
    goes_requestFrom (sound_demoVisit grounded_pairTree) rfl rfl (by decide) hfounds hfits
  have hasks : Concerns pairTree ["srv"] pairHomes "demo" (requestFrom "/home" ["init", "demo"]) :=
    concerns_pair (by decide) rfl ⟨by decide, by decide⟩ (.inl rfl)
      (by decide : Path.place [] "/home" = ["home"]) (by decide)
  have hstart : Parallel Main.keyName separate_pair "demo" pairTree pairTree pairTree := .start
  have hdisk : (run Main.keyName (requestFrom "/home" ["init", "demo"]) 0 pairTree).2.2 = d.disk :=
    congrArg (fun result => result.2.2) hrun
  have hfounding := hstart.theirs 0 hasks
  rw [hdisk] at hfounding
  have hmix : Unmixed "demo" "spare" :=
    unmixed_single (Path.Plain.proper (by decide)) (Path.Plain.proper (by decide)) (by decide)
  have hspare : Bystander separate_pair "demo" pairTree (requestFrom "/other" ["init", "spare"]) := by
    refine ⟨⟨"spare", hmix, ?_⟩, ?_⟩
    · exact concerns_pair (by decide) rfl ⟨by decide, by decide⟩ (.inr rfl)
        (by decide : Path.place [] "/other" = ["other"]) (by decide)
    · have hread : Flags.read (requestFrom "/other" ["init", "spare"]).args =
          (demoRunner.flags "/other", ["init", "spare"]) :=
        read_request (i := .new "/other" ["init", "spare"]) rfl (by decide)
      rw [namedFiles, errandOf, hread]
      exact List.forall_mem_nil _
  obtain ⟨hrecords, halike⟩ := hfounding.unnoticed regular_pairTree (by decide)
  exact ⟨d.disk, hfounding, hd.content rfl, hrecords "spare" hmix.records, halike _ 4 hspare⟩

/-! ### Names that differ in a slash -/

def slashPremises (repo : String) : Premises := { demoPremises with repo := repo }

theorem slash_recordPlace :
    (slashPremises "a/b").recordPlace = (slashPremises "a_b").recordPlace := by decide +kernel

theorem sound_slashPremises {repo : String} (hrepo : repo = "a/b" ∨ repo = "a_b") :
    (slashPremises repo).Sound where
  located := sound_demoPremises.located
  directory := sound_demoPremises.directory
  record_name := by rcases hrepo with rfl | rfl <;> decide +kernel
  record_path := by rcases hrepo with rfl | rfl <;> decide +kernel
  unused := by rcases hrepo with rfl | rfl <;> rfl
  segments := by rcases hrepo with rfl | rfl <;> decide +kernel
  apart := by rcases hrepo with rfl | rfl <;> decide +kernel
  passphrases := sound_demoPremises.passphrases
  login := nofun

theorem grounded_slashPremises {base : Tree} (h : demoPremises.Grounded base) (repo : String) :
    (slashPremises repo).Grounded base := ⟨h.kept, h.fresh, h.unlocked⟩

/-- The client that founds the one repository. -/
theorem sound_slashFounder {base : Tree} (hbase : demoPremises.Grounded base) :
    (⟨slashPremises "a/b", "/home", ["home"], base⟩ : Visit).Sound where
  premises := sound_slashPremises (.inl rfl)
  located := (sound_demoVisit hbase).located
  open_end := (sound_demoVisit hbase).open_end
  free := (sound_demoVisit hbase).free
  apart := by
    intro name _ he
    exact absurd (List.cons.inj he).1 (by decide)
  keys_path := (sound_demoVisit hbase).keys_path
  staged_path := (by decide +kernel : Tree.refuse? (stagedPath "/home" "a/b") = none)
  root_path := (by decide +kernel : Tree.refuse? (RootDocument.path "/home" "a/b") = none)
  grounded := grounded_slashPremises hbase _

/-- The client that asks for the other one. -/
theorem sound_slashReader {base : Tree} (hbase : demoPremises.Grounded base) :
    (⟨slashPremises "a_b", "/other", ["other"], base⟩ : Visit).Sound where
  premises := sound_slashPremises (.inr rfl)
  located := (sound_otherVisit hbase).located
  open_end := (sound_otherVisit hbase).open_end
  free := (sound_otherVisit hbase).free
  apart := by
    intro name _ he
    exact absurd (List.cons.inj he).1 (by decide)
  keys_path := (sound_otherVisit hbase).keys_path
  staged_path := (by decide +kernel : Tree.refuse? (stagedPath "/other" "a_b") = none)
  root_path := (by decide +kernel : Tree.refuse? (RootDocument.path "/other" "a_b") = none)
  grounded := grounded_slashPremises hbase _

/-- The record of the one repository after its foundation, and the founder's keys. -/
def slashRecord : Record := (madeKeys Main.keyName "a/b" firstRoles 0 .empty []).1.bump

def slashKeys : List LocalKey := (madeKeys Main.keyName "a/b" firstRoles 0 .empty []).2

theorem bounded_slashRecord : slashRecord.Bounded :=
  (settled_founding (Text.hexadecimal_injective 32) "a/b" 0 []).bounded (by decide) nofun

theorem goes_slashFounding {base : Tree} (hbase : demoPremises.Grounded base) : ∃ output,
    (⟨slashPremises "a/b", "/home", ["home"], base⟩ : Visit).Goes
      (command demoPremises.office "/srv" "/home" ["init", "a/b"]) ⟨none, .empty, 0, none, ""⟩ ()
      ⟨some slashRecord, ⟨slashKeys, [], some slashRecord⟩, 4, none, output⟩ :=
  have hc := sound_slashFounder hbase
  ⟨_, (goes_login hc nofun).bind (goes_init hc rfl rfl bounded_slashRecord)⟩

theorem goes_slashListing {base : Tree} (hbase : demoPremises.Grounded base) : ∃ w,
    (⟨slashPremises "a_b", "/other", ["other"], base⟩ : Visit).Goes
      (command demoPremises.office "/srv" "/other" ["list", "a_b"])
      ⟨some slashRecord, .empty, 4, none, ""⟩ () w :=
  have hc := sound_slashReader hbase
  ⟨_, (goes_login hc nofun).bind (goes_list hc rfl bounded_slashRecord.version)⟩

/-- After `a/b` has been founded, `a_b` can be listed, and before that it could not: both have their
record in the same file. -/
theorem slash_shares_record : ∃ t : Store,
    (run Main.keyName (requestFrom "/home" ["init", "a/b"]) 0 pairTree).2 = (t.made, t.disk) ∧
    (run Main.keyName (requestFrom "/other" ["list", "a_b"]) t.made t.disk).1.exit = some 0 ∧
    (run Main.keyName (requestFrom "/other" ["list", "a_b"]) t.made pairTree).1.exit = some 1 := by
  have hfounder := sound_slashFounder grounded_pairTree
  have hfits : (⟨slashPremises "a/b", "/home", ["home"], pairTree⟩ : Visit).Fits
      (deskOf (requestFrom "/home" ["init", "a/b"]) 0 pairTree) ⟨none, .empty, 0, none, ""⟩ :=
    Visit.fits_start (by rfl) (housed_pairTree (.inl rfl)) _
  obtain ⟨output, hfounds⟩ := goes_slashFounding grounded_pairTree
  obtain ⟨d, hrun, hd⟩ := goes_requestFrom hfounder rfl rfl (by decide) hfounds hfits
  refine ⟨⟨4, d.disk⟩, congrArg Prod.snd hrun, ?_, ?_⟩
  · have hbase := hd.grounded hfounder
    have hground : demoPremises.Grounded d.disk := ⟨hbase.kept, hbase.fresh, hbase.unlocked⟩
    -- The founder has touched nothing in the reader's trust directory.
    have hother : Housed d.disk ["other"] "a_b" .empty := by
      refine (housed_pairTree (.inr rfl)).congr fun place hplace => ?_
      obtain ⟨rest, rfl⟩ := hplace
      refine hd.elsewhere _ (fun he => ?_) fun hp => ?_
      · exact absurd (List.cons.inj he).1 (by decide)
      · exact absurd (List.cons_prefix_cons.1 hp).1 (by decide)
    have hrecord : Recorded d.disk (slashPremises "a_b").recordPlace (some slashRecord) := by
      rw [← slash_recordPlace]
      exact hd.record
    have hfits' : (⟨slashPremises "a_b", "/other", ["other"], d.disk⟩ : Visit).Fits
        (deskOf (requestFrom "/other" ["list", "a_b"]) 4 d.disk)
        ⟨some slashRecord, .empty, 4, none, ""⟩ :=
      Visit.fits_start hrecord hother _
    obtain ⟨w, hlists⟩ := goes_slashListing hground
    obtain ⟨e, hlist, -⟩ :=
      goes_requestFrom (sound_slashReader hground) rfl rfl (by decide) hlists hfits'
    exact congrArg (fun result => result.1.exit) hlist
  · have hreader := sound_slashReader grounded_pairTree
    have hfits' : (⟨slashPremises "a_b", "/other", ["other"], pairTree⟩ : Visit).Fits
        (deskOf (requestFrom "/other" ["list", "a_b"]) 4 pairTree) ⟨none, .empty, 4, none, ""⟩ :=
      Visit.fits_start (by rfl) (housed_pairTree (.inr rfl)) _
    exact stops_requestFrom hreader rfl rfl (by decide)
      ((goes_login hreader nofun).stop (stops_list hreader rfl)) hfits'

end Notary
end TrustTrial
