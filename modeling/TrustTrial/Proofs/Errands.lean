import TrustTrial.Proofs.Commands
import TrustTrial.Proofs.Contents
import TrustTrial.Proofs.Refusals
import TrustTrial.Proofs.Rereading

/-!
# TrustTrial.Proofs.Errands

What a command that succeeds has done, told from the files alone. `Performs` has one rule for every
command: which files it has read, and what it has put in their places. It holds whatever else there
is on the tree and whoever else works on it; all that is asked of the paths is that they name a
server and a trust directory (`Addressed`).
-/

namespace TrustTrial
namespace Notary

open Disk Step

/-! ## Places -/

def recordName (repo : String) : String := replaceSlashes repo ++ ".json"

/-- Where a server keeps the record of a repository. -/
def recordPlace (shelf : Location) (repo : String) : Location := shelf ++ [recordName repo]

/-- Where a client keeps its keys. -/
def keysPlace (home : Location) : Location := home ++ ["private", "keys.json"]

/-- Where a client keeps the additions that it has staged. -/
def stagedPlace (home : Location) (repo : String) : Location :=
  home ++ ["tuf"] ++ Path.names repo ++ ["changelist.json"]

/-- Where a client keeps its copy of the root document. -/
def rootPlace (home : Location) (repo : String) : Location :=
  home ++ ["tuf"] ++ Path.names repo ++ ["metadata"] ++ ["root.json"]

theorem proper_recordName (repo : String) : Path.Proper (recordName repo) := by
  have hchars : (recordName repo).toList =
      repo.toList.map (fun c => if c = '/' then '_' else c) ++ ".json".toList := by
    simp [recordName, replaceSlashes]
  have hlength : 5 ≤ (recordName repo).toList.length := by
    rw [hchars, List.length_append]
    exact Nat.le_add_left 5 _
  refine ⟨?_, ?_, ?_, ?_⟩
  · rw [hchars, List.mem_append, not_or]
    refine ⟨?_, by decide⟩
    rw [List.mem_map]
    rintro ⟨c, -, hc⟩
    split at hc
    · exact absurd hc (by decide)
    · rename_i hslash
      exact hslash hc
  all_goals
    intro he
    rw [he] at hlength
    exact absurd hlength (by decide)

/-- Paths that name a server directory and a trust directory. They go up only from directories
that are there. -/
structure Addressed (t : Tree) (here : Location) (server trustDir : String)
    (shelf home : Location) : Prop where
  server_place : Path.place here server = shelf
  server_steady : t.Steady here server
  home_place : Path.place here trustDir = home
  home_steady : t.Steady here trustDir

section Places

variable {t : Tree} {here shelf home : Location} {server trustDir repo : String}

theorem Addressed.recordPath (h : Addressed t here server trustDir shelf home) (repo : String) :
    Path.place here (recordPath server repo) = recordPlace shelf repo := by
  rw [Notary.recordPath, recordPlace, ← h.server_place]
  exact Path.place_join_name (proper_recordName repo) here server

theorem Addressed.keysPath (h : Addressed t here server trustDir shelf home) :
    Path.place here (keysPath trustDir) = keysPlace home := by
  have hprivate : Path.Plain "private" := by decide
  have hkeys : Path.Plain "keys.json" := by decide
  rw [Notary.keysPath, privateDir, Path.place_join_name hkeys.proper,
    Path.place_join_name hprivate.proper, h.home_place, List.append_assoc]
  rfl

theorem plain_tuf : Path.Plain "tuf" := by decide

theorem Addressed.repoPath (h : Addressed t here server trustDir shelf home)
    (hrepo : Path.Straight repo) :
    Path.place here (Path.join (Path.join trustDir "tuf") repo) =
      home ++ ["tuf"] ++ Path.names repo := by
  rw [Path.place_join_straight hrepo, Path.place_join_name plain_tuf.proper, h.home_place]

theorem plain_changelist : Path.Plain "changelist.json" := by decide

theorem Addressed.stagedPath (h : Addressed t here server trustDir shelf home)
    (hrepo : Path.Straight repo) :
    Path.place here (stagedPath trustDir repo) = stagedPlace home repo := by
  rw [Notary.stagedPath, Path.place_join_name plain_changelist.proper, h.repoPath hrepo,
    stagedPlace]

theorem Addressed.rootPath (h : Addressed t here server trustDir shelf home)
    (hrepo : Path.Straight repo) :
    Path.place here (rootPath trustDir repo) = rootPlace home repo := by
  have hmetadata : Path.Plain "metadata" := by decide
  have hroot : Path.Plain "root.json" := by decide
  simp only [Notary.rootPath, Path.place_join_name hroot.proper,
    Path.place_join_name hmetadata.proper, h.repoPath hrepo, rootPlace]

/-- What is short enough to be followed by one text can be followed by a shorter one. -/
theorem refuse?_shorter {front long short : String} (h : Tree.refuse? (front ++ long) = none)
    (hshort : short.utf8ByteSize ≤ long.utf8ByteSize) (hnul : Path.hasNul short = false)
    (hne : short ≠ "") : Tree.refuse? (front ++ short) = none := by
  unfold Tree.refuse? at h ⊢
  split at h
  · cases h
  · rename_i hfront
    split at h
    · cases h
    · split at h
      · cases h
      · rename_i hlong
        have hfront' : Path.hasNul (front ++ short) = false := by
          simp only [Path.hasNul, String.toList_append, List.contains_append, Bool.or_eq_true,
            not_or, Bool.not_eq_true, Bool.or_eq_false_iff] at hfront hnul ⊢
          exact ⟨hfront.1, hnul⟩
        rw [String.utf8ByteSize_append] at hlong
        rw [if_neg (by simp [hfront']), if_neg (by simp [hne]), if_neg]
        rw [String.utf8ByteSize_append]
        omega

/-- Where the copy of a root document can be written, staged additions can be looked for. -/
theorem refuse?_stagedPath (h : Tree.refuse? (rootPath trustDir repo) = none) :
    Tree.refuse? (stagedPath trustDir repo) = none := by
  have hjoin : ∃ front, ∀ path, Path.isAbsolute path = false →
      Path.join (Path.join (Path.join trustDir "tuf") repo) path = front ++ path := by
    by_cases hopen : (Path.join (Path.join trustDir "tuf") repo).isEmpty ||
        Path.endsInSlash (Path.join (Path.join trustDir "tuf") repo)
    · exact ⟨_, fun path hpath => by rw [Path.join, hpath, if_neg Bool.false_ne_true, if_pos hopen]⟩
    · exact ⟨_, fun path hpath => by rw [Path.join, hpath, if_neg Bool.false_ne_true, if_neg hopen]⟩
  obtain ⟨front, hfront⟩ := hjoin
  have hroot : rootPath trustDir repo = front ++ "metadata/root.json" := by
    have hempty : (front ++ "metadata").isEmpty = false := by simp
    have hslash : Path.endsInSlash (front ++ "metadata") = false := by
      rw [Path.endsInSlash_append (by decide)]
      rfl
    have habsolute : Path.isAbsolute "root.json" = false := rfl
    rw [rootPath, hfront "metadata" rfl, Path.join, habsolute, hempty, hslash,
      if_neg Bool.false_ne_true, Bool.or_self, if_neg Bool.false_ne_true, String.append_assoc,
      String.append_assoc]
    rfl
  rw [hroot] at h
  rw [stagedPath, hfront _ rfl]
  exact refuse?_shorter h (by decide) (by decide) (by decide)

end Places

/-! ## Stored values -/

/-- A file that is read as a value. -/
def Told {α : Type} (shape : Json.Shape) (ofValue? : Json.Value → Option α)
    (data : Option ByteArray) (a : α) : Prop :=
  ∃ bytes text, data = some bytes ∧ String.fromUTF8? bytes = some text ∧
    readAs shape ofValue? text = .ok a

/-- A file that is read as the record of a repository. -/
abbrev TellsRecord (data : Option ByteArray) (r : Record) : Prop :=
  Told Record.shape Record.ofValue? data r

/-- A file that is read as staged additions, or none if nothing is staged. -/
def TellsStaged (data : Option ByteArray) (staged : List Staged) : Prop :=
  data = none ∧ staged = [] ∨ Told (.listOf Staged.shape) (toList? Staged.ofValue?) data staged

/-- The file of a record. -/
def Record.printed (r : Record) : ByteArray := r.toValue.pretty.toUTF8

/-- The root document as a client keeps it. -/
def Record.printedRoot (r : Record) : ByteArray := r.rootDocument.pretty.toUTF8

/-- The file of staged additions. -/
def printedStaged (staged : List Staged) : ByteArray :=
  (Json.Value.list (staged.map Staged.toValue)).pretty.toUTF8

/-- The file of a client's keys. -/
def printedKeys (keys : List LocalKey) : ByteArray :=
  (Json.Value.list (keys.map LocalKey.toValue)).pretty.toUTF8

/-- A record's file tells nothing but the record. -/
theorem tellsRecord_printed {r r' : Record} (h : TellsRecord (some r.printed) r') : r' = r := by
  obtain ⟨bytes, text, hbytes, htext, hread⟩ := h
  obtain rfl := Option.some.inj hbytes
  rw [Record.printed, Text.fromUTF8?_toUTF8] at htext
  obtain rfl := Option.some.inj htext
  exact readAs_record_eq hread

theorem tellsRecord_none {r : Record} : ¬TellsRecord none r := by
  rintro ⟨bytes, text, hbytes, -⟩
  cases hbytes

theorem tellsRecord_unique {data : Option ByteArray} {r r' : Record} (h : TellsRecord data r)
    (h' : TellsRecord data r') : r' = r := by
  obtain ⟨bytes, text, rfl, htext, hread⟩ := h
  obtain ⟨bytes', text', hbytes, htext', hread'⟩ := h'
  obtain rfl := Option.some.inj hbytes
  rw [htext] at htext'
  obtain rfl := Option.some.inj htext'
  rw [hread] at hread'
  exact (Except.ok.inj hread').symm

theorem tellsStaged_printed {staged staged' : List Staged}
    (h : TellsStaged (some (printedStaged staged)) staged') : staged' = staged := by
  rcases h with ⟨hnone, -⟩ | ⟨bytes, text, hbytes, htext, hread⟩
  · cases hnone
  · obtain rfl := Option.some.inj hbytes
    rw [printedStaged, Text.fromUTF8?_toUTF8] at htext
    obtain rfl := Option.some.inj htext
    exact readAs_staged_eq hread

theorem tellsStaged_none {staged : List Staged} (h : TellsStaged none staged) : staged = [] := by
  rcases h with ⟨-, hstaged⟩ | ⟨bytes, text, hbytes, -⟩
  · exact hstaged
  · cases hbytes

/-! ## Reading steps -/

section Reading

variable {α : Type} {shape : Json.Shape} {ofValue? : Json.Value → Option α} {here : Location}
  {path server trustDir repo : String} {d e : Desk} {a : α}

theorem told_of_readFile (h : Step.run (readFile here shape ofValue? path) d = (.ok a, e)) :
    Told shape ofValue? (d.disk.content (Path.place here path)) a := by
  obtain ⟨text, d', htext, h⟩ := run_bind_ok h
  simp only [Step.run, readText, look, Prod.mk.injEq] at htext
  obtain ⟨htext, rfl⟩ := htext
  split at htext
  · cases htext
  · rename_i hread
    cases htext
    obtain ⟨data, hdata, hutf⟩ := Tree.readText_content hread
    split at h
    · cases h
    · rename_i hvalue
      cases h
      exact ⟨data, text, hdata, hutf, hvalue⟩

theorem tellsRecord_of_loadRecord {r : Record}
    (h : Step.run (loadRecord here server repo) d = (.ok r, e)) :
    TellsRecord (d.disk.content (Path.place here (recordPath server repo))) r := by
  obtain ⟨found, d', hfound, h⟩ := run_bind_ok h
  obtain ⟨-, rfl⟩ := Prod.mk.inj (run_present.symm.trans hfound)
  split at h
  · exact told_of_readFile h
  · cases h

theorem tellsStaged_of_loadStaged {staged : List Staged} (hregular : d.disk.Regular)
    (hsteady : d.disk.Steady here trustDir) (hrepo : Path.Straight repo)
    (hrefuse : Tree.refuse? (stagedPath trustDir repo) = none)
    (h : Step.run (loadStaged here trustDir repo) d = (.ok staged, e)) :
    TellsStaged (d.disk.content (Path.place here (stagedPath trustDir repo))) staged := by
  obtain ⟨found, d', hfound, h⟩ := run_bind_ok h
  obtain ⟨hleads, rfl⟩ := Prod.mk.inj (run_present.symm.trans hfound)
  obtain rfl := Except.ok.inj hleads
  split at h
  · exact .inr (told_of_readFile h)
  · rename_i hmissing
    cases h
    have hdir := (hsteady.join plain_tuf.proper.straight).join hrepo
    exact .inl ⟨Tree.content_of_not_leads hregular hdir plain_changelist.proper hrefuse
      (Bool.not_eq_true _ ▸ hmissing), rfl⟩

end Reading

/-! ## Writing steps -/

/-- What the files hold and how many keys have been made, on a regular tree. -/
structure Desk.Charted (d : Desk) (f : Tree.Contents) (made : Nat) : Prop where
  regular : d.disk.Regular
  content : d.disk.content = f
  made : d.made = made

section Writing

variable {α : Type} {here : Location} {path : String} {d e : Desk} {f : Tree.Contents} {made : Nat}

theorem Desk.At.charted {t : Tree} (h : d.At t made) (ht : t.Regular) : d.Charted t.content made :=
  ⟨h.disk ▸ ht, congrArg Tree.content h.disk, h.made⟩

theorem Desk.Charted.quiet (hd : d.Charted f made) {x : Step α} (hx : Quiet x)
    {result : Except Trouble α} (h : Step.run x d = (result, e)) : e.Charted f made := by
  have he := hx.at h (.refl d)
  exact ⟨he.disk ▸ hd.regular, (congrArg Tree.content he.disk).trans hd.content,
    he.made.trans hd.made⟩

/-- Writing a file puts it in its place. -/
theorem Desk.Charted.writeFile (hd : d.Charted f made) {v : Json.Value}
    (h : Step.run (writeFile here path v) d = (.ok (), e)) :
    Tree.refuse? path = none ∧
      e.Charted (f.put (Path.place here path) (some v.pretty.toUTF8)) made := by
  simp only [Step.run, Notary.writeFile] at h
  split at h
  · cases h
  · rename_i u hmake
    split at h
    · cases h
    · rename_i w hwrite
      cases h
      obtain ⟨hregular, hcontent⟩ := Tree.makeDirectories_keeps hd.regular here (Path.parent path)
      rw [hmake] at hregular hcontent
      obtain ⟨hrefuse, hwritten, hput⟩ := Tree.write_keeps hregular hwrite
      exact ⟨hrefuse, hwritten, by rw [hput, hcontent, hd.content], hd.made⟩

theorem Desk.Charted.removeFile (hd : d.Charted f made)
    (h : Step.run (removeFile here path) d = (.ok (), e)) :
    e.Charted (f.put (Path.place here path) none) made := by
  simp only [Step.run, Notary.removeFile] at h
  split at h
  · cases h
  · rename_i u hremove
    cases h
    obtain ⟨hregular, hcontent⟩ := Tree.removeFile_keeps hd.regular hremove
    exact ⟨hregular, by rw [hcontent, hd.content], hd.made⟩

theorem Desk.Charted.newKey (hd : d.Charted f made) {o : Office} {id : String}
    (h : Step.run (newKey o) d = (.ok id, e)) :
    id = o.keyName made ∧ e.Charted f (made + 1) := by
  cases h
  exact ⟨congrArg o.keyName hd.made, hd.regular, hd.content, congrArg (· + 1) hd.made⟩

theorem Desk.Charted.makeKeys (hd : d.Charted f made) {o : Office} {repo : String}
    {roles : List String} {r r' : Record} {keys keys' : List LocalKey}
    (h : Step.run (makeKeys o repo roles r keys) d = (.ok (r', keys'), e)) :
    madeKeys o.keyName repo roles made r keys = (r', keys') ∧ e.Charted f (made + roles.length) := by
  induction roles generalizing d made r keys with
  | nil =>
    cases h
    exact ⟨rfl, hd⟩
  | cons role roles ih =>
    obtain ⟨id, d', hid, h⟩ := run_bind_ok h
    obtain ⟨rfl, hd'⟩ := hd.newKey hid
    obtain ⟨hmade, he⟩ := ih hd' h
    refine ⟨hmade, ?_⟩
    rw [List.length_cons, Nat.add_comm roles.length, ← Nat.add_assoc]
    exact he

end Writing

/-! ## Commands -/

namespace Record

/-- The record after a rotation of the key of a role. -/
def rotated (r : Record) (role id : String) : Record :=
  (if role = "root" then r.trust role id else (r.dropKeys role).trust role id).bump

theorem targets_rotated (r : Record) (role id : String) : (r.rotated role id).targets = r.targets := by
  rw [rotated]
  split <;> rfl

theorem version_rotated (r : Record) (role id : String) :
    (r.rotated role id).version = r.version + 1 := by
  rw [rotated]
  split <;> rfl

end Record

/-- What the notary is asked to do. -/
inductive Errand where
  | init (repo : String)
  | add (repo name file : String)
  | publish (repo : String)
  | list (repo : String)
  | verify (repo name file : String)
  | keys
  | rotate (repo role : String)
  | other
  deriving DecidableEq, Repr

namespace Errand

def ofWords : List String → Errand
  | ["init", repo] => .init repo
  | ["add", repo, name, file] => .add repo name file
  | ["publish", repo] => .publish repo
  | ["list", repo] => .list repo
  | ["verify", repo, name, "-i", file, "-q"] => .verify repo name file
  | ["key", "list"] => .keys
  | "key" :: "rotate" :: repo :: role :: _ => .rotate repo role
  | _ => .other

/-- The repository that it is about, if any. -/
def repo? : Errand → Option String
  | .init repo | .add repo _ _ | .publish repo | .list repo | .verify repo _ _ | .rotate repo _ =>
    some repo
  | .keys | .other => none

/-- The repository whose root document it leaves in the trust directory, if any. -/
def shows? : Errand → Option String
  | .init repo | .publish repo | .list repo | .rotate repo _ => some repo
  | _ => none

/-- The places at which it may put a file or take one away. -/
def places (shelf home : Location) : Errand → List Location
  | .init repo | .rotate repo _ => [recordPlace shelf repo, keysPlace home, rootPlace home repo]
  | .add repo _ _ => [stagedPlace home repo]
  | .publish repo => [recordPlace shelf repo, stagedPlace home repo, rootPlace home repo]
  | .list repo => [rootPlace home repo]
  | .verify _ _ _ | .keys | .other => []

/-- Apart from the client's keys, all these places are the repository's. -/
theorem of_mem_places {shelf home place : Location} {errand : Errand}
    (h : place ∈ errand.places shelf home) :
    place = keysPlace home ∨ ∃ repo ∈ errand.repo?, place = recordPlace shelf repo ∨
      place = stagedPlace home repo ∨
        place = rootPlace home repo ∧ errand.shows? = some repo := by
  cases errand with
  | init repo | rotate repo role =>
    simp only [places, List.mem_cons, List.not_mem_nil, or_false] at h
    rcases h with hrecord | hkeys | hroot
    · exact .inr ⟨repo, rfl, .inl hrecord⟩
    · exact .inl hkeys
    · exact .inr ⟨repo, rfl, .inr (.inr ⟨hroot, rfl⟩)⟩
  | add repo name file => exact .inr ⟨repo, rfl, .inr (.inl (List.mem_singleton.1 h))⟩
  | publish repo =>
    simp only [places, List.mem_cons, List.not_mem_nil, or_false] at h
    rcases h with hrecord | hstaged | hroot
    · exact .inr ⟨repo, rfl, .inl hrecord⟩
    · exact .inr ⟨repo, rfl, .inr (.inl hstaged)⟩
    · exact .inr ⟨repo, rfl, .inr (.inr ⟨hroot, rfl⟩)⟩
  | list repo => exact .inr ⟨repo, rfl, .inr (.inr ⟨List.mem_singleton.1 h, rfl⟩)⟩
  | verify | keys | other => cases h

end Errand

/-- What a successful run has read and written, and how many keys there are then. `files` are the
files as they are read by path. -/
inductive Performs (keyName : Nat → String) (shelf home : Location)
    (files : String → Except Fault ByteArray) (f : Tree.Contents) (made : Nat) :
    Errand → Tree.Contents → Nat → Prop where
  | init {repo : String} {r : Record} {keys keys' : List LocalKey} :
      f (recordPlace shelf repo) = none →
      madeKeys keyName repo firstRoles made .empty keys = (r, keys') →
      Performs keyName shelf home files f made (.init repo)
        (((f.put (recordPlace shelf repo) (some r.bump.printed)).put (keysPlace home)
          (some (printedKeys keys'))).put (rootPlace home repo) (some r.bump.printedRoot))
        (made + 4)
  | add {repo name file : String} {data : ByteArray} {staged : List Staged} :
      files file = .ok data → TellsStaged (f (stagedPlace home repo)) staged →
      Performs keyName shelf home files f made (.add repo name file)
        (f.put (stagedPlace home repo) (some (printedStaged (staged ++ [⟨name, .ofContent data⟩]))))
        made
  | publish {repo : String} {r : Record} {staged : List Staged} :
      TellsRecord (f (recordPlace shelf repo)) r → TellsStaged (f (stagedPlace home repo)) staged →
      staged ≠ [] → r.version < Text.maxWord →
      Performs keyName shelf home files f made (.publish repo)
        (((f.put (recordPlace shelf repo) (some (r.publish staged).bump.printed)).put
          (stagedPlace home repo) none).put (rootPlace home repo)
          (some (r.publish staged).bump.printedRoot))
        made
  | publishNothing {repo : String} {r : Record} :
      TellsRecord (f (recordPlace shelf repo)) r → TellsStaged (f (stagedPlace home repo)) [] →
      Performs keyName shelf home files f made (.publish repo)
        (f.put (rootPlace home repo) (some r.printedRoot)) made
  | list {repo : String} {r : Record} :
      TellsRecord (f (recordPlace shelf repo)) r →
      Performs keyName shelf home files f made (.list repo)
        (f.put (rootPlace home repo) (some r.printedRoot)) made
  | verify {repo name file : String} :
      Performs keyName shelf home files f made (.verify repo name file) f made
  | keys : Performs keyName shelf home files f made .keys f made
  | rotate {repo role : String} {r : Record} {keys : List LocalKey} :
      TellsRecord (f (recordPlace shelf repo)) r → r.version < Text.maxWord →
      Performs keyName shelf home files f made (.rotate repo role)
        (((f.put (recordPlace shelf repo) (some (r.rotated role (keyName made)).printed)).put
          (keysPlace home) (some (printedKeys keys))).put (rootPlace home repo)
          (some (r.rotated role (keyName made)).printedRoot))
        (made + 1)
  | other : Performs keyName shelf home files f made .other f made

/-- All other files are as they were. -/
theorem Performs.frame {keyName : Nat → String} {shelf home place : Location}
    {files : String → Except Fault ByteArray} {f f' : Tree.Contents} {made made' : Nat}
    {errand : Errand} (h : Performs keyName shelf home files f made errand f' made')
    (hplace : place ∉ errand.places shelf home) : f' place = f place := by
  cases h with
  | init | rotate =>
    simp only [Errand.places, List.mem_cons, List.not_mem_nil, or_false, not_or] at hplace
    obtain ⟨hrecord, hkeys, hroot⟩ := hplace
    rw [Tree.Contents.put_of_ne hroot, Tree.Contents.put_of_ne hkeys,
      Tree.Contents.put_of_ne hrecord]
  | add => rw [Tree.Contents.put_of_ne (List.ne_of_not_mem_cons hplace)]
  | publish =>
    simp only [Errand.places, List.mem_cons, List.not_mem_nil, or_false, not_or] at hplace
    obtain ⟨hrecord, hstaged, hroot⟩ := hplace
    rw [Tree.Contents.put_of_ne hroot, Tree.Contents.put_of_ne hstaged,
      Tree.Contents.put_of_ne hrecord]
  | publishNothing =>
    simp only [Errand.places, List.mem_cons, not_or] at hplace
    rw [Tree.Contents.put_of_ne hplace.2.2.1]
  | list => rw [Tree.Contents.put_of_ne (List.ne_of_not_mem_cons hplace)]
  | verify | keys | other => rfl

/-- A desk on which an errand has been performed. -/
def Desk.Fulfils (e : Desk) (keyName : Nat → String) (shelf home : Location) (here : Location)
    (t : Tree) (made : Nat) (errand : Errand) : Prop :=
  ∃ f' made', Performs keyName shelf home (t.readBytes here) t.content made errand f' made' ∧
    e.Charted f' made'

section Commands

variable {o : Office} {server trustDir repo : String} {shelf home : Location} {t : Tree}
  {d e : Desk} {made : Nat}

theorem fulfils_init (ha : Addressed t o.here server trustDir shelf home) (ht : t.Regular)
    (hrepo : Path.Straight repo) (hd : d.At t made)
    (h : Step.run (init o server trustDir repo) d = (.ok (), e)) :
    e.Fulfils o.keyName shelf home o.here t made (.init repo) := by
  obtain ⟨_, d₁, h₁, h⟩ := run_bind_ok h
  obtain ⟨_, d₂, h₂, h⟩ := run_bind_ok h
  obtain ⟨_, d₃, h₃, h⟩ := run_bind_ok h
  have hd₃ := (quiet_requirePassphrase _ o).at h₃ ((quiet_requirePassphrase _ o).at h₂
    ((quiet_requirePassphrase _ o).at h₁ hd))
  obtain ⟨found, d₄, hfound, h⟩ := run_bind_ok h
  obtain ⟨hleads, rfl⟩ := Prod.mk.inj (run_present.symm.trans hfound)
  dsimp only at h
  split at h
  · cases h
  · rename_i hmissing
    obtain ⟨keys, d₅, hkeys, h⟩ := run_bind_ok h
    obtain ⟨⟨r, keys'⟩, d₆, hmake, h⟩ := run_bind_ok h
    obtain ⟨_, d₇, hrecord, h⟩ := run_bind_ok h
    obtain ⟨_, d₈, hsave, h⟩ := run_bind_ok h
    obtain ⟨_, d₉, hsync, hsay⟩ := run_bind_ok h
    have hd₅ := ((quiet_loadKeys _ _).at hkeys hd₃).charted ht
    obtain ⟨hmade, hd₆⟩ := hd₅.makeKeys hmake
    obtain ⟨hrefuse, hd₇⟩ := hd₆.writeFile hrecord
    obtain ⟨-, hd₈⟩ := hd₇.writeFile hsave
    obtain ⟨-, hd₉⟩ := hd₈.writeFile hsync
    rw [ha.recordPath, ha.keysPath, ha.rootPath hrepo] at hd₉
    refine ⟨_, _, .init ?_ hmade, hd₉.quiet (quiet_print _) hsay⟩
    rw [← ha.recordPath repo]
    refine Tree.content_of_not_leads ht ha.server_steady (proper_recordName repo) hrefuse ?_
    rw [← Except.ok.inj hleads, hd₃.disk] at hmissing
    exact Bool.not_eq_true _ ▸ hmissing

theorem fulfils_add (ha : Addressed t o.here server trustDir shelf home) (ht : t.Regular)
    (hrepo : Path.Straight repo) (hd : d.At t made) {name file : String}
    (h : Step.run (add o trustDir repo name file) d = (.ok (), e)) :
    e.Fulfils o.keyName shelf home o.here t made (.add repo name file) := by
  obtain ⟨data, d₁, hdata, h⟩ := run_bind_ok h
  obtain ⟨staged, d₂, hstaged, h⟩ := run_bind_ok h
  obtain ⟨_, d₃, hsave, hsay⟩ := run_bind_ok h
  have hd₁ := (quiet_look _).at hdata hd
  have hd₂ := ((quiet_loadStaged _ _ _).at hstaged hd₁).charted ht
  obtain ⟨hrefuse, hd₃⟩ := hd₂.writeFile hsave
  rw [ha.stagedPath hrepo] at hd₃
  refine ⟨_, _, .add ?_ ?_, hd₃.quiet (quiet_print _) hsay⟩
  · simp only [Step.run, Notary.readBytes, look, hd.disk, Prod.mk.injEq] at hdata
    split at hdata
    · cases hdata.1
    · rename_i hread
      rw [hread, Except.ok.inj hdata.1]
  · have htells := tellsStaged_of_loadStaged (hd₁.disk ▸ ht) (hd₁.disk ▸ ha.home_steady) hrepo
      hrefuse hstaged
    rwa [hd₁.disk, ha.stagedPath hrepo] at htells

theorem run_countOn_ok {r : Record} {a : Unit} (h : Step.run (countOn r) d = (.ok a, e)) :
    r.version < Text.maxWord ∧ e = d := by
  unfold countOn at h
  split at h
  · rename_i hversion
    cases h
    exact ⟨hversion, rfl⟩
  · cases h

theorem fulfils_publish (ha : Addressed t o.here server trustDir shelf home) (ht : t.Regular)
    (hrepo : Path.Straight repo) (hd : d.At t made)
    (h : Step.run (publish o server trustDir repo) d = (.ok (), e)) :
    e.Fulfils o.keyName shelf home o.here t made (.publish repo) := by
  obtain ⟨r, d₁, hr, h⟩ := run_bind_ok h
  obtain ⟨staged, d₂, hstaged, h⟩ := run_bind_ok h
  have htold := tellsRecord_of_loadRecord hr
  rw [hd.disk, ha.recordPath] at htold
  have hd₁ := (quiet_loadRecord _ _ _).at hr hd
  have hd₂ := ((quiet_loadStaged _ _ _).at hstaged hd₁).charted ht
  have htells : Tree.refuse? (rootPath trustDir repo) = none →
      TellsStaged (t.content (stagedPlace home repo)) staged := by
    intro hrefuse
    have htells := tellsStaged_of_loadStaged (hd₁.disk ▸ ht) (hd₁.disk ▸ ha.home_steady) hrepo
      (refuse?_stagedPath hrefuse) hstaged
    rwa [hd₁.disk, ha.stagedPath hrepo] at htells
  split at h
  · rename_i hempty
    obtain ⟨_, d₃, hsay, hsync⟩ := run_bind_ok h
    obtain ⟨hrefuse, he⟩ := (hd₂.quiet (quiet_print _) hsay).writeFile hsync
    rw [ha.rootPath hrepo] at he
    rw [List.isEmpty_iff.1 hempty] at htells
    exact ⟨_, _, .publishNothing htold (htells hrefuse), he⟩
  · rename_i hsome
    obtain ⟨_, d', hcount, hrest⟩ := run_bind_ok h
    obtain ⟨hversion, rfl⟩ := run_countOn_ok hcount
    obtain ⟨_, d₃, hsave, h⟩ := run_bind_ok hrest
    obtain ⟨_, d₄, hremove, h⟩ := run_bind_ok h
    obtain ⟨_, d₅, hsay, hsync⟩ := run_bind_ok h
    obtain ⟨-, hd₃⟩ := hd₂.writeFile hsave
    obtain ⟨hrefuse, he⟩ := ((hd₃.removeFile hremove).quiet (quiet_print _) hsay).writeFile hsync
    rw [ha.recordPath, ha.stagedPath hrepo, ha.rootPath hrepo] at he
    exact ⟨_, _, .publish htold (htells hrefuse) (by simpa using hsome) hversion, he⟩

theorem fulfils_list (ha : Addressed t o.here server trustDir shelf home) (ht : t.Regular)
    (hrepo : Path.Straight repo) (hd : d.At t made)
    (h : Step.run (list o server trustDir repo) d = (.ok (), e)) :
    e.Fulfils o.keyName shelf home o.here t made (.list repo) := by
  obtain ⟨r, d₁, hr, h⟩ := run_bind_ok h
  obtain ⟨_, d₂, hsync, h⟩ := run_bind_ok h
  have htold := tellsRecord_of_loadRecord hr
  rw [hd.disk, ha.recordPath] at htold
  obtain ⟨-, hd₂⟩ := (((quiet_loadRecord _ _ _).at hr hd).charted ht).writeFile hsync
  rw [ha.rootPath hrepo] at hd₂
  refine ⟨_, _, .list htold, hd₂.quiet ?_ h⟩
  refine (quiet_print _).bind fun _ => (quiet_look _).bind fun stale => ?_
  split
  · exact quiet_pure _
  · exact quiet_print _

theorem fulfils_rotateRoot (ha : Addressed t o.here server trustDir shelf home) (ht : t.Regular)
    (hrepo : Path.Straight repo) (hd : d.At t made)
    (h : Step.run (rotateRoot o server trustDir repo) d = (.ok (), e)) :
    e.Fulfils o.keyName shelf home o.here t made (.rotate repo "root") := by
  obtain ⟨r, d₁, hr, h⟩ := run_bind_ok h
  obtain ⟨keys, d₂, hkeys, h⟩ := run_bind_ok h
  obtain ⟨_, d₃, hphrase, h⟩ := run_bind_ok h
  obtain ⟨_, d', hcount, hrest⟩ := run_bind_ok h
  obtain ⟨hversion, rfl⟩ := run_countOn_ok hcount
  obtain ⟨id, d₄, hid, h⟩ := run_bind_ok hrest
  obtain ⟨_, d₅, hrecord, h⟩ := run_bind_ok h
  obtain ⟨_, d₆, hsave, hsync⟩ := run_bind_ok h
  have htold := tellsRecord_of_loadRecord hr
  rw [hd.disk, ha.recordPath] at htold
  have hd₃ := (quiet_requirePassphrase _ o).at hphrase ((quiet_loadKeys _ _).at hkeys
    ((quiet_loadRecord _ _ _).at hr hd))
  obtain ⟨rfl, hd₄⟩ := (hd₃.charted ht).newKey hid
  obtain ⟨-, hd₅⟩ := hd₄.writeFile hrecord
  obtain ⟨-, hd₆⟩ := hd₅.writeFile hsave
  obtain ⟨-, he⟩ := hd₆.writeFile hsync
  rw [ha.recordPath, ha.keysPath, ha.rootPath hrepo] at he
  exact ⟨_, _, .rotate htold hversion, he⟩

theorem fulfils_rotateOther (ha : Addressed t o.here server trustDir shelf home) (ht : t.Regular)
    (hrepo : Path.Straight repo) (hd : d.At t made) {role : String} (hrole : role ≠ "root")
    {managed : Bool} (h : Step.run (rotateOther o server trustDir repo role managed) d = (.ok (), e)) :
    e.Fulfils o.keyName shelf home o.here t made (.rotate repo role) := by
  obtain ⟨r, d₁, hr, h⟩ := run_bind_ok h
  obtain ⟨keys, d₂, hkeys, h⟩ := run_bind_ok h
  obtain ⟨_, d', hcount, hrest⟩ := run_bind_ok h
  obtain ⟨hversion, rfl⟩ := run_countOn_ok hcount
  obtain ⟨id, d₃, hid, h⟩ := run_bind_ok hrest
  obtain ⟨_, d₄, hrecord, h⟩ := run_bind_ok h
  obtain ⟨_, d₅, hsave, hsync⟩ := run_bind_ok h
  have htold := tellsRecord_of_loadRecord hr
  rw [hd.disk, ha.recordPath] at htold
  have hd₂ := (quiet_loadKeys _ _).at hkeys ((quiet_loadRecord _ _ _).at hr hd)
  obtain ⟨rfl, hd₃⟩ := (hd₂.charted ht).newKey hid
  obtain ⟨-, hd₄⟩ := hd₃.writeFile hrecord
  obtain ⟨-, hd₅⟩ := hd₄.writeFile hsave
  obtain ⟨-, he⟩ := hd₅.writeFile hsync
  rw [ha.recordPath, ha.keysPath, ha.rootPath hrepo] at he
  have hrotated : r.rotated role (o.keyName made) =
      ((r.dropKeys role).trust role (o.keyName made)).bump := congrArg Record.bump (if_neg hrole)
  rw [← hrotated] at he
  exact ⟨_, _, .rotate htold hversion, he⟩

theorem Desk.Fulfils.quiet {errand : Errand} {here : Location} {keyName : Nat → String}
    (hd : d.Fulfils keyName shelf home here t made errand) {x : Step Unit} (hx : Quiet x)
    (h : Step.run x d = (.ok (), e)) : e.Fulfils keyName shelf home here t made errand := by
  obtain ⟨f', made', hperforms, hd⟩ := hd
  exact ⟨f', made', hperforms, hd.quiet hx h⟩

theorem fulfils_rotate (ha : Addressed t o.here server trustDir shelf home) (ht : t.Regular)
    (hrepo : Path.Straight repo) (hd : d.At t made) {role : String} {flags : List String}
    (h : Step.run (rotate o server trustDir repo role flags) d = (.ok (), e)) :
    e.Fulfils o.keyName shelf home o.here t made (.rotate repo role) := by
  unfold rotate at h
  dsimp only at h
  split at h
  · rename_i hroot
    subst hroot
    obtain ⟨answer, d₁, hanswer, h⟩ := run_bind_ok h
    split at h
    · obtain ⟨_, d₂, hlogin, h⟩ := run_bind_ok h
      obtain ⟨_, d₃, hrotate, hsay⟩ := run_bind_ok h
      have hd₂ := (quiet_login _ _).at hlogin (quiet_readLine.at hanswer hd)
      exact (fulfils_rotateRoot ha ht hrepo hd₂ hrotate).quiet (quiet_print _) hsay
    · cases h
  · rename_i hrole
    obtain ⟨_, d₁, hlogin, h⟩ := run_bind_ok h
    obtain ⟨_, d₂, hrotate, hsay⟩ := run_bind_ok h
    have hd₁ := (quiet_login _ _).at hlogin hd
    exact (fulfils_rotateOther ha ht hrepo hd₁ hrole hrotate).quiet (quiet_print _) hsay

/-- What a command that succeeds has done. -/
theorem fulfils_command (ha : Addressed t o.here server trustDir shelf home) (ht : t.Regular)
    {words : List String} (hrepo : ∀ repo ∈ (Errand.ofWords words).repo?, Path.Straight repo)
    (hd : d.At t made) (h : Step.run (command o server trustDir words) d = (.ok (), e)) :
    e.Fulfils o.keyName shelf home o.here t made (Errand.ofWords words) := by
  unfold command at h
  split at h
  case h_1 =>
    obtain ⟨_, d₁, hlogin, h⟩ := run_bind_ok h
    exact fulfils_init ha ht (hrepo _ rfl) ((quiet_login _ _).at hlogin hd) h
  case h_2 => exact fulfils_add ha ht (hrepo _ rfl) hd h
  case h_3 =>
    obtain ⟨_, d₁, hlogin, h⟩ := run_bind_ok h
    exact fulfils_publish ha ht (hrepo _ rfl) ((quiet_login _ _).at hlogin hd) h
  case h_4 =>
    obtain ⟨_, d₁, hlogin, h⟩ := run_bind_ok h
    exact fulfils_list ha ht (hrepo _ rfl) ((quiet_login _ _).at hlogin hd) h
  case h_5 =>
    exact ⟨_, _, .verify, (hd.charted ht).quiet (quiet_verify o server _ _ _) h⟩
  case h_6 => exact ⟨_, _, .keys, (hd.charted ht).quiet (quiet_listKeys o trustDir) h⟩
  case h_7 => exact fulfils_rotate ha ht (hrepo _ rfl) hd h
  case h_8 => cases h

end Commands

/-! ## Runs -/

/-- What a request asks for. -/
def errandOf (request : Request) : Errand := .ofWords (Flags.read request.args).2

/-- The office that a request is carried out in. -/
def officeOf (keyName : Nat → String) (request : Request) : Office :=
  ⟨request.here, request.environment, keyName⟩

/-- The desk on which a request is carried out. -/
def deskOf (request : Request) (made : Nat) (t : Tree) : Desk :=
  ⟨t, request.stdin.data.toList, .empty, made⟩

/-- A request whose server and trust directory, as far as it names them, are at the given places. -/
def Directed (t : Tree) (request : Request) (shelf home : Location) : Prop :=
  ∀ trustDir server d e, (Flags.read request.args).1.trustDir = some trustDir → d.disk = t →
    Step.run (openServer request.here (Flags.read request.args).1) d = (.ok server, e) →
      Addressed t request.here server trustDir shelf home

/-- A run that does not fail by writing. -/
def Unhindered (keyName : Nat → String) (request : Request) (made : Nat) (t : Tree) : Prop :=
  ∀ trouble e, Step.run (answer (officeOf keyName request) request.args) (deskOf request made t) =
    (.error trouble, e) → trouble.writing = false

section Runs

variable {keyName : Nat → String} {request : Request} {shelf home : Location} {t t' : Tree}
  {made made' : Nat} {reply : Reply}

theorem errandOf_plumbing {words : List String}
    (h : (Flags.read request.args).2 = "debug" :: words) : errandOf request = .other := by
  rw [errandOf, h]
  unfold Errand.ofWords
  split <;> first | rfl | simp_all

/-- What an answer that succeeds has done. Only plumbing ends with another code than zero. -/
theorem fulfils_answer (hdirected : Directed t request shelf home) (ht : t.Regular)
    (hrepo : ∀ repo ∈ (errandOf request).repo?, Path.Straight repo) {code : Nat} {e : Desk}
    (h : Step.run (answer (officeOf keyName request) request.args) (deskOf request made t) =
      (.ok code, e)) :
    e.Fulfils keyName shelf home request.here t made (errandOf request) ∧
      (code ≠ 0 → e.At t made) := by
  have hd : (deskOf request made t).At t made := ⟨rfl, rfl⟩
  unfold answer at h
  split at h
  · rename_i f words hread
    have he := (quiet_plumbing _ f words).at h hd
    refine ⟨⟨_, _, ?_, he.charted ht⟩, fun _ => he⟩
    rw [errandOf_plumbing (congrArg Prod.snd hread)]
    exact .other
  · rename_i f words _ hread
    split at h
    · cases h
    · rename_i trustDir htrustDir
      obtain ⟨server, d₁, hopen, h⟩ := run_bind_ok h
      obtain ⟨_, d₂, hcommand, h⟩ := run_bind_ok h
      cases h
      have hd₁ := (quiet_openServer _ _).at hopen hd
      have hfst := congrArg Prod.fst hread
      have hsnd := congrArg Prod.snd hread
      rw [errandOf, hsnd] at hrepo ⊢
      have ha := hdirected trustDir server _ d₁ (by rw [hfst]; exact htrustDir) hd.disk
        (by rw [hfst]; exact hopen)
      exact ⟨fulfils_command (o := officeOf keyName request) ha ht hrepo hd₁ hcommand,
        fun hcode => absurd rfl hcode⟩

/-- A run has done its errand if it ends well, and nothing otherwise. -/
theorem run_cases (hdirected : Directed t request shelf home) (ht : t.Regular)
    (hrepo : ∀ repo ∈ (errandOf request).repo?, Path.Straight repo)
    (hunhindered : Unhindered keyName request made t)
    (h : run keyName request made t = (reply, made', t')) :
    t'.Regular ∧
      (reply.exit = some 0 ∧
          Performs keyName shelf home (t.readBytes request.here) t.content made (errandOf request)
            t'.content made' ∨
        reply.exit ≠ some 0 ∧ t' = t ∧ made' = made) := by
  cases hanswer : Step.run (answer (officeOf keyName request) request.args)
      (deskOf request made t) with
  | mk result d =>
    cases result with
    | ok code =>
      have hrun : run keyName request made t = (⟨d.output, "", some code⟩, d.made, d.disk) := by
        simp only [officeOf, deskOf] at hanswer
        simp only [run, hanswer]
      rw [hrun] at h
      cases h
      obtain ⟨⟨f', n, hperforms, hd⟩, hcode⟩ := fulfils_answer hdirected ht hrepo hanswer
      refine ⟨hd.regular, ?_⟩
      by_cases hzero : code = 0
      · subst hzero
        rw [hd.content, hd.made]
        exact .inl ⟨rfl, hperforms⟩
      · refine .inr ⟨?_, (hcode hzero).disk, (hcode hzero).made⟩
        simpa using hzero
    | error trouble =>
      have hrun : run keyName request made t =
          (⟨d.output, trouble.report, some trouble.exit⟩, d.made, d.disk) := by
        simp only [officeOf, deskOf] at hanswer
        simp only [run, hanswer]
      rw [hrun] at h
      cases h
      have hd := careful_answer _ _ _ _ _ hanswer (hunhindered _ _ hanswer)
      exact ⟨hd.disk ▸ ht, .inr ⟨by simp [trouble.exit_ne_zero], hd.disk, hd.made⟩⟩

end Runs

end Notary
end TrustTrial
