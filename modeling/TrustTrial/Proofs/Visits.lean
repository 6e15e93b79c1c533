import TrustTrial.Notary.Command
import TrustTrial.Proofs.Homes
import TrustTrial.Proofs.Lines

/-!
# TrustTrial.Proofs.Visits

A run of the notary for one repository and one client, step by step. A `View` tells what the run
can see: the record on the server, what the client holds, the input, the output and the number of
keys. `Goes` says that a step leads from one view to another; it has a rule for sequences and one
lemma for each step that commands are made of.

The rest of the tree does not matter to a run and is left alone by it.
-/

namespace TrustTrial
namespace Notary

open Disk

/-! ## Premises -/

/-- What a server and its clients work on: the office of the notary, a server directory with its
place, a repository, the login that the server wants, and the tree as it was before anything was
written for the repository. -/
structure Premises where
  office : Office
  server : String
  shelf : Location
  repo : String
  login : Option Login
  ground : Tree

/-- The variables without which no repository is initialized. -/
def passphraseNames : List String :=
  ["NOTARY_ROOT_PASSPHRASE", "NOTARY_TARGETS_PASSPHRASE", "NOTARY_SNAPSHOT_PASSPHRASE"]

namespace Premises

def recordName (p : Premises) : String := replaceSlashes p.repo ++ ".json"

def recordPlace (p : Premises) : Location := p.shelf ++ [p.recordName]

/-- Names in the server directory that are not for clients. -/
def reserved (p : Premises) : List String := [p.recordName, "login.json", "stale_suffix"]

/-- The server directory is there, knows nothing of the repository, and wants a login that can be
typed, if any; passphrases are set. -/
structure Sound (p : Premises) : Prop where
  located : p.ground.locate p.office.here p.server = .ok p.shelf
  directory : p.ground.find? p.shelf = some .directory
  record_name : Path.Plain p.recordName
  record_path : Tree.refuse? (recordPath p.server p.repo) = none
  unused : p.ground.find? p.recordPlace = none
  segments : ∀ part ∈ Path.parts p.repo, Path.Plain part
  apart : p.recordName ≠ "login.json"
  passphrases : ∀ name ∈ passphraseNames, ∃ value,
    p.office.environment.get? name = some value ∧ value ≠ ""
  login : ∀ l ∈ p.login, Typed l.username ∧ Typed l.password ∧
    ∃ text, p.ground.readText p.office.here (loginPath p.server) = .ok text ∧
      readAs Login.shape Login.ofValue? text = .ok l

/-- A tree on which what was there before is still there, and that has neither a mirror that falls
behind nor a login that is not wanted. -/
structure Grounded (p : Premises) (t : Tree) : Prop where
  kept : ∀ place node, p.ground.find? place = some node → t.find? place = some node
  fresh : t.find? (p.shelf ++ ["stale_suffix"]) = none
  unlocked : p.login = none → t.find? (p.shelf ++ ["login.json"]) = none

end Premises

/-- A client at the server: its trust directory with its place, and the tree when it came. -/
structure Visit where
  premises : Premises
  trustDir : String
  home : Location
  base : Tree

namespace Visit

/-- The trust directory is apart from everything that was there before, and its paths are short
enough. -/
structure Sound (c : Visit) : Prop where
  premises : c.premises.Sound
  located : c.premises.ground.locate c.premises.office.here c.trustDir = .ok c.home
  open_end : Path.endsInSlash c.trustDir = false
  free : ∀ place, c.home <+: place → c.premises.ground.find? place = none
  apart : ∀ name ∈ c.premises.reserved, c.home ≠ c.premises.shelf ++ [name]
  keys_path : Tree.refuse? (keysPath c.trustDir) = none
  staged_path : Tree.refuse? (stagedPath c.trustDir c.premises.repo) = none
  root_path : Tree.refuse? (RootDocument.path c.trustDir c.premises.repo) = none
  grounded : c.premises.Grounded c.base

end Visit

/-! ## Views -/

/-- What a run can see. The input is what is left of it, if that is known. -/
structure View where
  record : Option Record
  home : Home
  made : Nat
  input : Option (List UInt8)
  output : String

/-- A desk as a view tells it. Everything else is as it was. -/
structure Visit.Fits (c : Visit) (d : Desk) (v : View) : Prop where
  record : Recorded d.disk c.premises.recordPlace v.record
  home : Housed d.disk c.home c.premises.repo v.home
  elsewhere : ∀ place, place ≠ c.premises.recordPlace → ¬c.home <+: place →
    d.disk.find? place = c.base.find? place
  made : d.made = v.made
  input : ∀ input ∈ v.input, d.input = input
  output : d.output = v.output.toUTF8

/-- A desk as it is when the client comes. -/
theorem Visit.fits_start {c : Visit} {record : Option Record} {home : Home} {made : Nat}
    (hrecord : Recorded c.base c.premises.recordPlace record)
    (hhome : Housed c.base c.home c.premises.repo home) (input : List UInt8) :
    c.Fits ⟨c.base, input, .empty, made⟩ ⟨record, home, made, none, ""⟩ where
  record := hrecord
  home := hhome
  elsewhere _ _ _ := rfl
  made := rfl
  input _ hinput := absurd hinput (Option.not_mem_none _)
  output := rfl

/-- A step that leads from one view to another. -/
def Visit.Goes {α : Type} (c : Visit) (x : Step α) (v : View) (a : α) (w : View) : Prop :=
  ∀ d, c.Fits d v → ∃ e, Step.run x d = (.ok a, e) ∧ c.Fits e w

/-- A step that is refused. -/
def Visit.Stops {α : Type} (c : Visit) (x : Step α) (v : View) : Prop :=
  ∀ d, c.Fits d v → ∃ trouble e, Step.run x d = (.error trouble, e) ∧ trouble.exit = 1

section Rules

variable {α β : Type} {c : Visit} {x : Step α} {f : α → Step β} {u v w : View} {a : α} {b : β}

theorem goes_pure : c.Goes (pure a) v a v := fun d hd => ⟨d, rfl, hd⟩

theorem Visit.Goes.bind (hx : c.Goes x u a v) (hf : c.Goes (f a) v b w) :
    c.Goes (x >>= f) u b w := by
  intro d hd
  obtain ⟨d', hrun, hd'⟩ := hx d hd
  obtain ⟨e, hrun', he⟩ := hf d' hd'
  refine ⟨e, ?_, he⟩
  rw [Step.run_bind, hrun]
  exact hrun'

theorem Visit.Goes.stop (hx : c.Goes x u a v) (hf : c.Stops (f a) v) : c.Stops (x >>= f) u := by
  intro d hd
  obtain ⟨d', hrun, hd'⟩ := hx d hd
  obtain ⟨trouble, e, hrun', hexit⟩ := hf d' hd'
  refine ⟨trouble, e, ?_, hexit⟩
  rw [Step.run_bind, hrun]
  exact hrun'

theorem Visit.Stops.bind (hx : c.Stops x u) : c.Stops (x >>= f) u := by
  intro d hd
  obtain ⟨trouble, e, hrun, hexit⟩ := hx d hd
  refine ⟨trouble, e, ?_, hexit⟩
  rw [Step.run_bind, hrun]

theorem stops_throw {trouble : Trouble} (hexit : trouble.exit = 1) :
    c.Stops (throw trouble : Step α) v :=
  fun d _ => ⟨trouble, d, rfl, hexit⟩

end Rules

/-! ## Small steps -/

section Steps

variable {c : Visit} {v : View}

theorem goes_newKey :
    c.Goes (newKey c.premises.office) v (c.premises.office.keyName v.made)
      { v with made := v.made + 1 } := by
  intro d hd
  refine ⟨{ d with made := d.made + 1 }, ?_, hd.record, hd.home, hd.elsewhere, ?_, hd.input,
    hd.output⟩
  · rw [← hd.made]
    rfl
  · simp [hd.made]

theorem goes_print (text : String) :
    c.Goes (print text) v () { v with output := v.output ++ text } := by
  intro d hd
  refine ⟨{ d with output := d.output ++ text.toUTF8 }, rfl, hd.record, hd.home, hd.elsewhere,
    hd.made, hd.input, ?_⟩
  simp [hd.output]

theorem goes_say (line : String) :
    c.Goes (say line) v () { v with output := v.output ++ (line ++ "\n") } :=
  goes_print _

theorem goes_requirePassphrase (hp : c.premises.Sound) {name : String}
    (hname : name ∈ passphraseNames) :
    c.Goes (requirePassphrase c.premises.office name) v () v := by
  intro d hd
  obtain ⟨value, hvalue, hne⟩ := hp.passphrases name hname
  have hempty : value.isEmpty = false := by simpa using hne
  refine ⟨d, ?_, hd⟩
  simp only [requirePassphrase, hvalue, hempty]
  rfl

theorem goes_readLine {line : String} (hline : Typed line) (rest : List UInt8)
    (hinput : v.input = some (bytes (line ++ "\n") ++ rest)) :
    c.Goes readLine v line { v with input := some rest } := by
  intro d hd
  have hcut : Text.cutLine d.input = (bytes line, rest) := by
    rw [hd.input _ hinput, bytes_append, List.append_assoc]
    exact cutLine_line (newline_notMem_bytes hline.single) rest
  refine ⟨{ d with input := rest }, ?_, hd.record, hd.home, hd.elsewhere, hd.made, ?_, hd.output⟩
  · simp only [Step.run, readLine, hcut, lineText_bytes, hline.dropLineEnds]
  · rintro _ ⟨⟩
    rfl

theorem goes_readLine_end {line : String} (hline : Typed line)
    (hinput : v.input = some (bytes line)) :
    c.Goes readLine v line { v with input := some [] } := by
  intro d hd
  have hcut : Text.cutLine d.input = (bytes line, []) := by
    rw [hd.input _ hinput]
    exact cutLine_end (newline_notMem_bytes hline.single)
  refine ⟨{ d with input := [] }, ?_, hd.record, hd.home, hd.elsewhere, hd.made, ?_, hd.output⟩
  · simp only [Step.run, readLine, hcut, lineText_bytes, hline.dropLineEnds]
  · rintro _ ⟨⟩
    rfl

end Steps

/-! ## Paths -/

/-- A tree on which what was there before is still there shows it under the same paths. -/
theorem look_kept {t u : Tree}
    (hkept : ∀ place node, t.find? place = some node → u.find? place = some node)
    {here : Location} {path : String} {node : Node} (h : t.look here path = .ok node) :
    u.look here path = .ok node := by
  cases hplace : t.locate here path with
  | error fault =>
    rw [Tree.look, hplace] at h
    cases h
  | ok place =>
    rw [Tree.look_of_locate hplace] at h
    rw [Tree.look_of_locate (Tree.locate_mono (fun q hq => hkept q _ hq) hplace)]
    split at h
    · cases h
    · rename_i found hfound
      cases h
      rw [hkept place _ hfound]

theorem readText_kept {t u : Tree}
    (hkept : ∀ place node, t.find? place = some node → u.find? place = some node)
    {here : Location} {path text : String} (h : t.readText here path = .ok text) :
    u.readText here path = .ok text := by
  cases hlook : t.look here path with
  | error fault => simp [Tree.readText, Tree.readBytes, hlook] at h
  | ok node =>
    simp only [Tree.readText, Tree.readBytes, hlook] at h
    simp only [Tree.readText, Tree.readBytes, look_kept hkept hlook]
    exact h

namespace Premises

variable {p : Premises} {t : Tree}

theorem Grounded.directories (h : p.Grounded t) (place : Location)
    (hplace : p.ground.find? place = some .directory) : t.find? place = some .directory :=
  h.kept place _ hplace

theorem Sound.clear (hp : p.Sound) (h : p.Grounded t) : t.Clear p.shelf [] := by
  have hdir := h.kept _ _ hp.directory
  refine ⟨hdir, fun front hfront => .inl ?_⟩
  rw [List.prefix_nil.1 hfront, List.append_nil]
  exact hdir

theorem Sound.leads (hp : p.Sound) (h : p.Grounded t) {name : String} (hname : Path.Plain name)
    (hrefuse : Tree.refuse? (Path.join p.server name) = none) :
    t.Leads p.office.here (Path.join p.server name) p.shelf [] name :=
  .of_join (Tree.locate_mono h.directories hp.located) hname hrefuse

/-- What is not in the server directory is not found by its path. -/
theorem Sound.not_found (hp : p.Sound) (h : p.Grounded t) {name : String}
    (hname : Path.Plain name) (hnone : t.find? (p.shelf ++ [name]) = none) :
    ∃ fault, t.look p.office.here (Path.join p.server name) = .error fault := by
  cases hrefuse : Tree.refuse? (Path.join p.server name) with
  | some fault => exact ⟨fault, by simp [Tree.look, Tree.locate, hrefuse]⟩
  | none =>
    have hlook := (hp.leads h hname hrefuse).look (hp.clear h)
    rw [List.append_nil, hnone] at hlook
    exact ⟨_, hlook⟩

theorem Sound.leads_record (hp : p.Sound) (h : p.Grounded t) :
    t.Leads p.office.here (recordPath p.server p.repo) p.shelf [] p.recordName :=
  hp.leads h hp.record_name hp.record_path

end Premises

theorem parts_cons_isAbsolute {path : String} (h : ∀ part ∈ Path.parts path, Path.Plain part) :
    Path.isAbsolute path = false := by
  rw [Path.isAbsolute]
  split
  · rename_i cs hslash
    have hparts : Path.parts path = "" :: (Text.partChars '/' cs).map .ofList := by
      rw [Path.parts, Text.parted, hslash, Text.partChars, if_pos rfl]
      rfl
    exact absurd rfl (h "" (by simp [hparts])).named
  · rfl

theorem parts_endsInSlash {path : String} (h : ∀ part ∈ Path.parts path, Path.Plain part) :
    Path.endsInSlash path = false := by
  cases hslash : Path.endsInSlash path with
  | false => rfl
  | true =>
    obtain ⟨front, rfl⟩ := Path.eq_of_endsInSlash hslash
    have hparts := Path.parts_slash front ""
    rw [String.append_empty] at hparts
    exact absurd rfl (h "" (by rw [hparts]; simp [Path.parts, Text.parted, Text.partChars])).named

theorem ne_empty_of_parts {path : String} (h : ∀ part ∈ Path.parts path, Path.Plain part) :
    path ≠ "" := by
  rintro rfl
  exact absurd rfl (h "" (by simp [Path.parts, Text.parted, Text.partChars])).named

namespace Visit

variable {c : Visit} {t : Tree}

theorem Sound.not_below (hc : c.Sound) {name : String} (hname : name ∈ c.premises.reserved) :
    ¬c.home <+: c.premises.shelf ++ [name] := by
  rw [List.prefix_concat_iff]
  rintro (he | hbelow)
  · exact hc.apart name hname he
  · have hshelf := hc.premises.directory
    rw [hc.free _ hbelow] at hshelf
    cases hshelf

/-- Runs leave the ground as it was. -/
theorem Fits.grounded (hc : c.Sound) {d : Desk} {v : View} (hd : c.Fits d v) :
    c.premises.Grounded d.disk := by
  have hreserved : ∀ name ∈ c.premises.reserved, name ≠ c.premises.recordName →
      d.disk.find? (c.premises.shelf ++ [name]) = c.base.find? (c.premises.shelf ++ [name]) := by
    intro name hname hne
    refine hd.elsewhere _ ?_ (hc.not_below hname)
    simpa [Premises.recordPlace] using hne
  refine ⟨fun place node hnode => ?_, ?_, fun hlogin => ?_⟩
  · rw [hd.elsewhere place ?_ ?_]
    · exact hc.grounded.kept place node hnode
    · rintro rfl
      rw [hc.premises.unused] at hnode
      cases hnode
    · intro hbelow
      rw [hc.free place hbelow] at hnode
      cases hnode
  · rw [hreserved _ (by simp [Premises.reserved])]
    · exact hc.grounded.fresh
    · intro he
      have hend := congrArg (fun s => s.toList.getLast?) he
      simp [Premises.recordName] at hend
  · rw [hreserved _ (by simp [Premises.reserved]) hc.premises.apart.symm]
    exact hc.grounded.unlocked hlogin

theorem Sound.extends_trustDir (hc : c.Sound) : Path.Extends c.trustDir c.trustDir [] :=
  .refl hc.open_end (Tree.ne_empty_of_refuse? (Tree.locate_eq_ok hc.located).1)

theorem Sound.locate_trustDir (hc : c.Sound) (h : c.premises.Grounded t) :
    t.locate c.premises.office.here c.trustDir = .ok c.home :=
  Tree.locate_mono h.directories hc.located

theorem Sound.leads_keys (hc : c.Sound) (h : c.premises.Grounded t) :
    t.Leads c.premises.office.here (keysPath c.trustDir) c.home Spot.keys.folders
      Spot.keys.name := by
  have hfolder : Path.Plain "private" := by decide
  have hname : Path.Plain "keys.json" := by decide
  refine .of_extends (hc.locate_trustDir h) ((hc.extends_trustDir.name hfolder).name hname)
    hc.keys_path ?_ hname
  simpa [Spot.keys] using hfolder

theorem Sound.extends_repo (hc : c.Sound) :
    Path.Extends c.trustDir (Path.join (Path.join c.trustDir "tuf") c.premises.repo)
      ("tuf" :: Path.parts c.premises.repo) := by
  have hsegments := hc.premises.segments
  have htuf : Path.Plain "tuf" := by decide
  exact (hc.extends_trustDir.name htuf).join (parts_cons_isAbsolute hsegments)
    (parts_endsInSlash hsegments) (ne_empty_of_parts hsegments)

theorem Sound.leads_staged (hc : c.Sound) (h : c.premises.Grounded t) :
    t.Leads c.premises.office.here (stagedPath c.trustDir c.premises.repo) c.home
      (Spot.staged c.premises.repo).folders (Spot.staged c.premises.repo).name := by
  have htuf : Path.Plain "tuf" := by decide
  have hname : Path.Plain "changelist.json" := by decide
  refine .of_extends (hc.locate_trustDir h) (hc.extends_repo.name hname) hc.staged_path ?_ hname
  exact List.forall_mem_cons.2 ⟨htuf, hc.premises.segments⟩

theorem Sound.leads_root (hc : c.Sound) (h : c.premises.Grounded t) :
    t.Leads c.premises.office.here (RootDocument.path c.trustDir c.premises.repo) c.home
      (Spot.root c.premises.repo).folders (Spot.root c.premises.repo).name := by
  have htuf : Path.Plain "tuf" := by decide
  have hfolder : Path.Plain "metadata" := by decide
  have hname : Path.Plain "root.json" := by decide
  refine .of_extends (hc.locate_trustDir h) ?_ hc.root_path ?_ hname
  · exact (hc.extends_repo.name hfolder).name hname
  · exact List.forall_mem_cons.2 ⟨htuf, List.forall_mem_append.2
      ⟨hc.premises.segments, by simpa using hfolder⟩⟩

end Visit

/-! ## Files -/

section Files

variable {t : Tree} {here home : Location} {path name : String} {folders : List String} {d : Desk}

theorem leads_of_holds (hleads : t.Leads here path home folders name)
    (hclear : t.Clear home folders) {v : Json.Value}
    (hv : Holds t (home ++ folders ++ [name]) v) :
    t.leads here path = true ∧ t.readText here path = .ok v.pretty := by
  obtain ⟨executable, hfile⟩ := hv
  have hlook := hleads.look hclear
  rw [hfile] at hlook
  simp only [Tree.leads, Tree.readText, Tree.readBytes, hlook, Text.fromUTF8?_toUTF8, and_self]

theorem leads_of_none (hleads : t.Leads here path home folders name)
    (hclear : t.Clear home folders) (hnone : t.find? (home ++ folders ++ [name]) = none) :
    t.leads here path = false := by
  have hlook := hleads.look hclear
  rw [hnone] at hlook
  simp only [Tree.leads, hlook]

theorem run_readFile {α : Type} {shape : Json.Shape} {ofValue? : Json.Value → Option α}
    {text : String} {a : α} (htext : d.disk.readText here path = .ok text)
    (ha : readAs shape ofValue? text = .ok a) :
    Step.run (readFile here shape ofValue? path) d = (.ok a, d) := by
  have hread : Step.run (readText here path) d = (.ok text, d) := by
    simp only [Step.run, readText, look, htext]
  rw [readFile, Step.run_bind, hread]
  simp only [ha]
  rfl

theorem run_present : Step.run (present here path) d = (.ok (d.disk.leads here path), d) := rfl

/-- A list is read from its file, or is empty without one. -/
theorem run_readList {α : Type} {shape : Json.Shape} {ofValue? : Json.Value → Option α}
    {toValue : α → Json.Value} {xs : List α} (hleads : d.disk.Leads here path home folders name)
    (hclear : d.disk.Clear home folders)
    (hxs : Lists toValue d.disk (home ++ folders ++ [name]) xs)
    (hread : readAs (.listOf shape) (toList? ofValue?) (Json.Value.list (xs.map toValue)).pretty =
      .ok xs) :
    Step.run (readList here shape ofValue? path) d = (.ok xs, d) := by
  rw [readList, Step.run_bind, run_present]
  rcases hxs with ⟨hnone, rfl⟩ | hv
  · simp only [leads_of_none hleads hclear hnone, Bool.false_eq_true, if_false]
    rfl
  · obtain ⟨hfound, htext⟩ := leads_of_holds hleads hclear hv
    simp only [hfound, if_true]
    exact run_readFile htext hread

theorem run_writeFile (hleads : d.disk.Leads here path home folders name)
    (hclear : d.disk.Clear home folders)
    (hfile : d.disk.find? (home ++ folders ++ [name]) ≠ some .directory) (v : Json.Value) :
    ∃ t, Step.run (writeFile here path v) d = (.ok (), { d with disk := t }) ∧
      Tree.Written d.disk home folders name v.pretty.toUTF8 t := by
  obtain ⟨u, t, hmake, hwrite, hwritten⟩ := hleads.write hclear hfile v.pretty.toUTF8
  refine ⟨t, ?_, hwritten⟩
  simp only [Step.run, writeFile, hmake, hwrite]

end Files

/-! ## Steps on files -/

section FileSteps

variable {c : Visit} {v : View}

theorem goes_present_record (hc : c.Sound) :
    c.Goes (present c.premises.office.here (recordPath c.premises.server c.premises.repo)) v
      v.record.isSome v := by
  intro d hd
  have hg := hd.grounded hc
  have hleads := hc.premises.leads_record hg
  have hclear := hc.premises.clear hg
  have hrecord := hd.record
  refine ⟨d, ?_, hd⟩
  rw [run_present]
  cases hv : v.record with
  | none =>
    rw [hv] at hrecord
    rw [leads_of_none hleads hclear (by rw [List.append_nil]; exact hrecord)]
    rfl
  | some r =>
    rw [hv] at hrecord
    rw [(leads_of_holds hleads hclear (by rw [List.append_nil]; exact hrecord.2)).1]
    rfl

theorem goes_loadRecord (hc : c.Sound) {r : Record} (hr : v.record = some r) :
    c.Goes (loadRecord c.premises.office.here c.premises.server c.premises.repo) v r v := by
  refine (goes_present_record hc).bind ?_
  intro d hd
  have hg := hd.grounded hc
  have hrecord := hd.record
  rw [hr] at hrecord
  have htext := (leads_of_holds (hc.premises.leads_record hg) (hc.premises.clear hg)
    (by rw [List.append_nil]; exact hrecord.2)).2
  refine ⟨d, ?_, hd⟩
  simp only [hr, Option.isSome_some, if_true]
  exact run_readFile htext (readAs_record hrecord.1)

theorem stops_loadRecord (hc : c.Sound) (hr : v.record = none) :
    c.Stops (loadRecord c.premises.office.here c.premises.server c.premises.repo) v := by
  refine (goes_present_record hc).stop ?_
  simp only [hr, Option.isSome_none, Bool.false_eq_true, if_false]
  exact stops_throw rfl

theorem goes_loadKeys (hc : c.Sound) :
    c.Goes (loadKeys c.premises.office.here c.trustDir) v v.home.keys v := by
  intro d hd
  have htidy := hd.home.tidy .keys (by simp [spots])
  exact ⟨d, run_readList (hc.leads_keys (hd.grounded hc)) htidy.1 hd.home.keys (readAs_keys _), hd⟩

theorem goes_loadStaged (hc : c.Sound) :
    c.Goes (loadStaged c.premises.office.here c.trustDir c.premises.repo) v v.home.staged v := by
  intro d hd
  have htidy := hd.home.tidy (.staged c.premises.repo) (by simp [spots])
  exact ⟨d, run_readList (hc.leads_staged (hd.grounded hc)) htidy.1 hd.home.staged
    (readAs_staged hd.home.sizes), hd⟩

/-- Writing a file of the client leaves the record and the rest as they are. -/
theorem Visit.Fits.written (hc : c.Sound) {d : Desk} (hd : c.Fits d v) {q : Spot} {data : ByteArray}
    {t : Tree} {h : Home} (hw : Tree.Written d.disk c.home q.folders q.name data t)
    (hh : Housed t c.home c.premises.repo h) :
    c.Fits { d with disk := t } { v with home := h } := by
  have hsame : ∀ place, ¬c.home <+: place → t.find? place = d.disk.find? place :=
    fun place hplace => Written.elsewhere_of_not_below hw hplace
  refine ⟨hd.record.congr (hsame _ (hc.not_below (by simp [Premises.reserved]))), hh,
    fun place hne hplace => ?_, hd.made, hd.input, hd.output⟩
  rw [hsame place hplace]
  exact hd.elsewhere place hne hplace

theorem goes_saveKeys (hc : c.Sound) (keys : List LocalKey) :
    c.Goes (saveKeys c.premises.office.here c.trustDir keys) v ()
      { v with home := { v.home with keys := keys } } := by
  intro d hd
  have htidy := hd.home.tidy .keys (by simp [spots])
  obtain ⟨t, hrun, hw⟩ := run_writeFile (hc.leads_keys (hd.grounded hc)) htidy.1 htidy.2
    (.list (keys.map LocalKey.toValue))
  exact ⟨_, hrun, hd.written hc hw (hd.home.writeKeys hw)⟩

theorem goes_saveStaged (hc : c.Sound) {staged : List Staged}
    (hsizes : ∀ s ∈ staged, s.target.size ≤ Text.maxWord) :
    c.Goes (saveStaged c.premises.office.here c.trustDir c.premises.repo staged) v ()
      { v with home := { v.home with staged := staged } } := by
  intro d hd
  have htidy := hd.home.tidy (.staged c.premises.repo) (by simp [spots])
  obtain ⟨t, hrun, hw⟩ := run_writeFile (hc.leads_staged (hd.grounded hc)) htidy.1 htidy.2
    (.list (staged.map Staged.toValue))
  exact ⟨_, hrun, hd.written hc hw (hd.home.writeStaged hsizes hw)⟩

theorem goes_sync (hc : c.Sound) {r : Record} (hversion : r.version ≤ Text.maxWord) :
    c.Goes (sync c.premises.office.here c.trustDir c.premises.repo r) v ()
      { v with home := { v.home with root := some r } } := by
  intro d hd
  have htidy := hd.home.tidy (.root c.premises.repo) (by simp [spots])
  obtain ⟨t, hrun, hw⟩ := run_writeFile (hc.leads_root (hd.grounded hc)) htidy.1 htidy.2
    r.rootDocument
  exact ⟨_, hrun, hd.written hc hw (hd.home.writeRoot hversion hw)⟩

theorem goes_saveRecord (hc : c.Sound) {r : Record} (hr : r.Bounded) :
    c.Goes (saveRecord c.premises.office.here c.premises.server c.premises.repo r) v ()
      { v with record := some r } := by
  intro d hd
  have hg := hd.grounded hc
  have hclear := hc.premises.clear hg
  have hbelow := hc.not_below (show c.premises.recordName ∈ _ by simp [Premises.reserved])
  have hplace : c.premises.shelf ++ [] ++ [c.premises.recordName] = c.premises.recordPlace := by
    rw [List.append_nil]
    rfl
  have hfile : d.disk.find? (c.premises.shelf ++ [] ++ [c.premises.recordName]) ≠
      some .directory := by
    have hrecord := hd.record
    rw [hplace]
    cases hv : v.record with
    | none =>
      rw [hv] at hrecord
      rw [show d.disk.find? c.premises.recordPlace = none from hrecord]
      exact nofun
    | some old =>
      rw [hv] at hrecord
      obtain ⟨executable, hold⟩ := hrecord.2
      rw [hold]
      exact nofun
  obtain ⟨t, hrun, hw⟩ := run_writeFile (hc.premises.leads_record hg) hclear hfile r.toValue
  have hsame : ∀ place, place ≠ c.premises.recordPlace → t.find? place = d.disk.find? place := by
    intro place hne
    by_cases hshelf : place = c.premises.shelf
    · rw [hshelf, hclear.directory]
      simpa using hw.directory [] List.nil_prefix
    · refine hw.elsewhere place (by rwa [hplace]) fun front hfront => ?_
      rw [List.prefix_nil.1 hfront, List.append_nil]
      exact hshelf
  have hhome : ∀ place, c.home <+: place → t.find? place = d.disk.find? place := by
    intro place hplace'
    refine hsame place ?_
    rintro rfl
    exact hbelow hplace'
  refine ⟨_, hrun, ⟨hr, hplace ▸ hw.file⟩, hd.home.congr hhome, fun place hne hplace' => ?_, hd.made,
    hd.input, hd.output⟩
  rw [hsame place hne]
  exact hd.elsewhere place hne hplace'

theorem goes_removeStaged (hc : c.Sound) (hstaged : v.home.staged ≠ []) :
    c.Goes (removeFile c.premises.office.here (stagedPath c.trustDir c.premises.repo)) v ()
      { v with home := { v.home with staged := [] } } := by
  intro d hd
  have htidy := hd.home.tidy (.staged c.premises.repo) (by simp [spots])
  obtain ⟨executable, hfile⟩ : Holds d.disk ((Spot.staged c.premises.repo).place c.home)
      (.list (v.home.staged.map Staged.toValue)) := by
    rcases hd.home.staged with ⟨-, hempty⟩ | hv
    · exact absurd hempty hstaged
    · exact hv
  have hlocate := (hc.leads_staged (hd.grounded hc)).locate_of_some htidy.1 hfile
  have hbelow := hc.not_below (show c.premises.recordName ∈ _ by simp [Premises.reserved])
  refine ⟨{ d with disk := d.disk.remove ((Spot.staged c.premises.repo).place c.home) }, ?_,
    hd.record.congr (find?_remove_of_not_below hbelow), hd.home.removeStaged,
    fun place hne hplace => ?_, hd.made, hd.input, hd.output⟩
  · simp only [Step.run, removeFile, Tree.removeFile_eq hlocate hfile]
    rfl
  · rw [find?_remove_of_not_below hplace]
    exact hd.elsewhere place hne hplace

/-- A file outside of the trust directory is read as it was when the client came. -/
theorem goes_readBytes (hc : c.Sound) {path : String} {place : Location} {data : ByteArray}
    {executable : Bool}
    (hpath : c.premises.ground.locate c.premises.office.here path = .ok place)
    (hrecord : place ≠ c.premises.recordPlace) (hhome : ¬c.home <+: place)
    (hfile : c.base.find? place = some (.file data executable)) :
    c.Goes (readBytes c.premises.office.here path) v data v := by
  intro d hd
  have hlocate := Tree.locate_mono (hd.grounded hc).directories hpath
  have hnode := (hd.elsewhere place hrecord hhome).trans hfile
  refine ⟨d, ?_, hd⟩
  simp only [Step.run, readBytes, look, Tree.readBytes, Tree.look, hlocate, hnode]

/-- No mirror falls behind. -/
theorem goes_isStale (hc : c.Sound) :
    c.Goes (look (fun disk =>
      .ok (isStale disk c.premises.office.here c.premises.server c.trustDir))) v false v := by
  intro d hd
  have hg := hd.grounded hc
  have hplain : Path.Plain "stale_suffix" := by decide
  obtain ⟨fault, hlook⟩ := hc.premises.not_found hg hplain hg.fresh
  refine ⟨d, ?_, hd⟩
  simp only [Step.run, look, isStale, stalePath, Tree.readText, Tree.readBytes, hlook]

theorem Visit.Goes.forget {α : Type} {x : Step α} {a : α} {w : View} (h : c.Goes x v a w) :
    c.Goes x v a { w with input := none } := by
  intro d hd
  obtain ⟨e, hrun, he⟩ := h d hd
  exact ⟨e, hrun, he.record, he.home, he.elsewhere, he.made, by simp, he.output⟩

theorem leads_of_readText {t : Tree} {here : Location} {path text : String}
    (h : t.readText here path = .ok text) : t.leads here path = true := by
  rw [Tree.leads]
  cases hlook : t.look here path with
  | ok node => rfl
  | error fault => simp [Tree.readText, Tree.readBytes, hlook] at h

/-- What is typed at a login. -/
def Login.answers (l : Login) : List UInt8 :=
  bytes (l.username ++ "\n") ++ bytes (l.password ++ "\n")

/-- The login succeeds, whether it is wanted or not. -/
theorem goes_login (hc : c.Sound) (hinput : ∀ l ∈ c.premises.login, v.input = some l.answers) :
    c.Goes (login c.premises.office.here c.premises.server) v () { v with input := none } := by
  cases hlogin : c.premises.login with
  | none =>
    refine Visit.Goes.forget ?_
    intro d hd
    have hg := hd.grounded hc
    obtain ⟨fault, hlook⟩ := hc.premises.not_found hg (show Path.Plain "login.json" by decide)
      (hg.unlocked hlogin)
    have habsent : d.disk.leads c.premises.office.here (loginPath c.premises.server) = false := by
      rw [Tree.leads, loginPath, hlook]
    refine ⟨d, ?_, hd⟩
    rw [login, Step.run_bind, run_present, habsent]
    rfl
  | some l =>
    obtain ⟨husername, hpassword, text, htext, hread⟩ := hc.premises.login l hlogin
    have htyped : v.input = some (bytes (l.username ++ "\n") ++ bytes (l.password ++ "\n")) :=
      hinput l hlogin
    have hkept : ∀ d, c.Fits d v → d.disk.readText c.premises.office.here
        (loginPath c.premises.server) = .ok text :=
      fun d hd => readText_kept (hd.grounded hc).kept htext
    have hpresent : c.Goes (present c.premises.office.here (loginPath c.premises.server)) v true v :=
      fun d hd => ⟨d, by rw [run_present, leads_of_readText (hkept d hd)], hd⟩
    have hfile : c.Goes (readFile c.premises.office.here Login.shape Login.ofValue?
        (loginPath c.premises.server)) v l v :=
      fun d hd => ⟨d, run_readFile (hkept d hd) hread, hd⟩
    refine hpresent.bind (hfile.bind ((goes_readLine husername _ htyped).bind ?_))
    refine Visit.Goes.bind (goes_readLine hpassword [] (by simp)) ?_
    simp only [and_self, if_true]
    exact goes_pure.forget

end FileSteps

end Notary
end TrustTrial
