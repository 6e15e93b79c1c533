import TrustTrial.Main
import TrustTrial.Proofs.Errands
import TrustTrial.Proofs.Records

/-!
# TrustTrial.Proofs.Chronicles

Requests to the notary one after the other, by any number of clients, on one server. A `Chronicle`
has a page for each of them, with the store that the request found; requests that fail are on it
too. What holds of the states that can be reached is proved by induction on a chronicle, for
which `Chronicle.induct` leaves two cases: a request that changed nothing, and one that has
performed its errand.
-/

namespace TrustTrial
namespace Notary

open Disk

/-- What outlives a run: the number of keys made so far, and the files. -/
structure Store where
  made : Nat
  disk : Tree

/-- A request that was carried out: the place of the client's trust directory, the store that it
found, and whether it ended well. -/
structure Page where
  request : Request
  home : Location
  before : Store
  done : Bool

def Page.errand (p : Page) : Errand := errandOf p.request

/-- The files as they were read by path. -/
def Page.files (p : Page) : String → Except Fault ByteArray :=
  p.before.disk.readBytes p.request.here

/-- Neither directory is inside the other one. -/
structure Apart (shelf home : Location) : Prop where
  shelf_not_above : ¬shelf <+: home
  home_not_above : ¬home <+: shelf

/-- What is asked of a request: it names the server, and a trust directory apart from it, and a
repository has a relative name that never goes up. -/
structure Orderly (shelf : Location) (request : Request) (home : Location) (s : Store) : Prop where
  directed : Directed s.disk request shelf home
  apart : Apart shelf home
  straight : ∀ repo ∈ (errandOf request).repo?, Path.Straight repo

/-- An orderly request of which no writing fails. -/
structure Fair (keyName : Nat → String) (shelf : Location) (request : Request) (home : Location)
    (s : Store) : Prop extends Orderly shelf request home s where
  unhindered : Unhindered keyName request s.made s.disk

/-- The pages that lead from one store to another. -/
inductive Chronicle (keyName : Nat → String) (shelf : Location) (s : Store) :
    List Page → Store → Prop where
  | nil : Chronicle keyName shelf s [] s
  | snoc {pages : List Page} {t u : Store} {request : Request} {home : Location} {reply : Reply} :
      Chronicle keyName shelf s pages t → Fair keyName shelf request home t →
      run keyName request t.made t.disk = (reply, u.made, u.disk) →
      Chronicle keyName shelf s (pages ++ [⟨request, home, t, reply.exit = some 0⟩]) u

section Chronicles

variable {keyName : Nat → String} {shelf home place : Location} {s t u : Store}
  {pages more : List Page} {p : Page}

theorem Chronicle.trans (h : Chronicle keyName shelf s pages t)
    (hmore : Chronicle keyName shelf t more u) : Chronicle keyName shelf s (pages ++ more) u := by
  induction hmore with
  | nil =>
    rw [List.append_nil]
    exact h
  | snoc _ hfair hrun ih =>
    rw [← List.append_assoc]
    exact .snoc ih hfair hrun

/-- A request has done its errand if it ended well, and nothing otherwise. -/
theorem Fair.outcome {request : Request} {reply : Reply} (h : Fair keyName shelf request home t)
    (ht : t.disk.Regular) (hrun : run keyName request t.made t.disk = (reply, u.made, u.disk))
    (hp : p = ⟨request, home, t, reply.exit = some 0⟩) :
    u.disk.Regular ∧ (p.done = false ∧ u = t ∨
      p.done = true ∧ Performs keyName shelf p.home p.files p.before.disk.content p.before.made
        p.errand u.disk.content u.made) := by
  subst hp
  obtain ⟨hregular, hcases⟩ := run_cases h.directed ht h.straight h.unhindered hrun
  refine ⟨hregular, ?_⟩
  rcases hcases with ⟨hexit, hperforms⟩ | ⟨hexit, hdisk, hmade⟩
  · exact .inr ⟨decide_eq_true hexit, hperforms⟩
  · refine .inl ⟨decide_eq_false hexit, ?_⟩
    cases u
    cases t
    cases hdisk
    cases hmade
    rfl

theorem Chronicle.induct {P : List Page → Store → Prop} (h : Chronicle keyName shelf s pages t)
    (hs : s.disk.Regular) (nil : P [] s)
    (idle : ∀ pages p, P pages p.before → p.done = false → P (pages ++ [p]) p.before)
    (performed : ∀ pages p u, P pages p.before → p.done = true → Apart shelf p.home →
      Performs keyName shelf p.home p.files p.before.disk.content p.before.made p.errand
        u.disk.content u.made → P (pages ++ [p]) u) :
    t.disk.Regular ∧ P pages t := by
  induction h with
  | nil => exact ⟨hs, nil⟩
  | @snoc pages t u request home reply _ hfair hrun ih =>
    obtain ⟨hregular, hP⟩ := ih
    obtain ⟨hregular', hcases⟩ := hfair.outcome hregular hrun rfl
    refine ⟨hregular', ?_⟩
    rcases hcases with ⟨hidle, rfl⟩ | ⟨hdone, hperforms⟩
    · exact idle pages _ hP hidle
    · exact performed pages _ u hP hdone hfair.apart hperforms

theorem Chronicle.regular (h : Chronicle keyName shelf s pages t) (hs : s.disk.Regular) :
    t.disk.Regular :=
  (h.induct (P := fun _ _ => True) hs trivial (fun _ _ _ _ => trivial)
    fun _ _ _ _ _ _ _ => trivial).1

/-- The last page, and what comes before it. -/
theorem Chronicle.last (h : Chronicle keyName shelf s (pages ++ [p]) t) (hs : s.disk.Regular) :
    Chronicle keyName shelf s pages p.before ∧ (p.done = false ∧ t = p.before ∨
      p.done = true ∧ Apart shelf p.home ∧
        Performs keyName shelf p.home p.files p.before.disk.content p.before.made p.errand
          t.disk.content t.made) := by
  generalize hall : pages ++ [p] = all at h
  cases h with
  | nil => simp at hall
  | @snoc pages' t' u request home reply hbefore hfair hrun =>
    obtain ⟨rfl, hlast⟩ := List.append_inj' hall rfl
    obtain rfl := (List.cons.inj hlast).1
    refine ⟨hbefore, ?_⟩
    obtain ⟨-, hcases⟩ := hfair.outcome (hbefore.regular hs) hrun rfl
    rcases hcases with hidle | ⟨hdone, hperforms⟩
    · exact .inl hidle
    · exact .inr ⟨hdone, hfair.apart, hperforms⟩

/-! ## Places apart -/

/-- No file below a trust directory is one of the server's. -/
theorem Apart.ne (h : Apart shelf home) (hplace : shelf <+: place) (names : List String) :
    place ≠ home ++ names := by
  rintro rfl
  rcases List.prefix_or_prefix_of_prefix hplace (List.prefix_append home names) with hshelf | hhome
  · exact h.shelf_not_above hshelf
  · exact h.home_not_above hhome

theorem prefix_recordPlace (shelf : Location) (repo : String) :
    shelf <+: recordPlace shelf repo := List.prefix_append _ _

theorem Apart.ne_keysPlace (h : Apart shelf home) (hplace : shelf <+: place) :
    place ≠ keysPlace home := h.ne hplace _

theorem Apart.ne_stagedPlace (h : Apart shelf home) (hplace : shelf <+: place) (repo : String) :
    place ≠ stagedPlace home repo := by
  have hne := h.ne hplace (["tuf"] ++ Path.names repo ++ ["changelist.json"])
  simpa [stagedPlace] using hne

theorem Apart.ne_rootPlace (h : Apart shelf home) (hplace : shelf <+: place) (repo : String) :
    place ≠ rootPlace home repo := by
  have hne := h.ne hplace (["tuf"] ++ Path.names repo ++ ["metadata"] ++ ["root.json"])
  simpa [rootPlace] using hne

theorem recordPlace_inj {repo repo' : String} (h : recordPlace shelf repo = recordPlace shelf repo') :
    recordName repo = recordName repo' := by
  simpa [recordPlace] using h

end Chronicles

/-! ## Requests that go well -/

section Going

variable {keyName : Nat → String} {shelf : Location} {s t : Store} {pages : List Page}
  {request : Request} {c : Visit} {v w : View} {r : Runner} {i : Invocation} {url : String}

theorem read_request (hargs : request.args = r.arguments i)
    (hwords : ∀ w ∈ i.args.head?, w ∉ ["-s", "-c", "-d", "-D", "debug"]) :
    Flags.read request.args = (r.flags i.trustDir, i.args) := by
  rw [hargs]
  exact read_arguments r i fun w hw hmem => hwords w hw (by simpa [or_assoc] using Or.inl hmem)

/-- A request that names both directories without going up is directed, whatever is on the tree. -/
theorem directed_of_onward {disk : Tree} {home : Location} {server : String}
    (hread : Flags.read request.args = (r.flags i.trustDir, i.args)) (hremote : r.server = .remote url)
    (hurl : serverDir? url = some server) (hserver : ".." ∉ Path.parts server)
    (hshelf : Path.place request.here server = shelf) (htrustDir : ".." ∉ Path.parts i.trustDir)
    (hhome : Path.place request.here i.trustDir = home) : Directed disk request shelf home := by
  have hflags : (Flags.read request.args).1 = ⟨some url, false, none, some i.trustDir⟩ := by
    rw [hread, Runner.flags, hremote]
  intro trustDir server' d e hdir _ hopen
  rw [hflags] at hdir hopen
  obtain rfl := Option.some.inj hdir
  have hstep : Step.run (openServer request.here ⟨some url, false, none, some i.trustDir⟩) d =
      (.ok server, d) := by
    simp only [openServer, hurl]
    rfl
  rw [hstep] at hopen
  cases hopen
  exact ⟨hshelf, ⟨[], _, _, rfl, rfl, hserver⟩, hhome, ⟨[], _, _, rfl, rfl, htrustDir⟩⟩

/-- A request whose command goes well meets with no hindrance. -/
theorem unhindered_of_goes (hc : c.Sound) (hoffice : c.premises.office = officeOf keyName request)
    (hargs : request.args = r.arguments i) (hserves : Serves r c.premises)
    (hdir : i.trustDir = c.trustDir)
    (hwords : ∀ w ∈ i.args.head?, w ∉ ["-s", "-c", "-d", "-D", "debug"])
    (hgoes : c.Goes (command c.premises.office c.premises.server c.trustDir i.args) v () w)
    (hfits : c.Fits (deskOf request t.made t.disk) v) :
    Unhindered keyName request t.made t.disk := by
  have hanswer := goes_answer hc hserves hdir hwords hgoes
  rw [← hargs] at hanswer
  intro trouble e hrun
  obtain ⟨d, hok, -⟩ := hanswer _ hfits
  rw [hoffice, hrun] at hok
  cases hok

/-- A request whose command goes well is one page more, and its client finds what it has left. -/
theorem Chronicle.goes (h : Chronicle keyName shelf s pages t) (hc : c.Sound)
    (hoffice : c.premises.office = officeOf keyName request) (hargs : request.args = r.arguments i)
    (hserves : Serves r c.premises) (hdir : i.trustDir = c.trustDir)
    (hwords : ∀ w ∈ i.args.head?, w ∉ ["-s", "-c", "-d", "-D", "debug"])
    (hdirected : Directed t.disk request shelf c.home) (hapart : Apart shelf c.home)
    (hstraight : ∀ repo ∈ (errandOf request).repo?, Path.Straight repo)
    (hgoes : c.Goes (command c.premises.office c.premises.server c.trustDir i.args) v () w)
    (hfits : c.Fits (deskOf request t.made t.disk) v) :
    ∃ u, Chronicle keyName shelf s (pages ++ [⟨request, c.home, t, true⟩]) u ∧ u.made = w.made ∧
      ∀ next, c.Fits (deskOf next u.made u.disk)
        { w with input := some next.stdin.data.toList, output := "" } := by
  have hanswer := goes_answer hc hserves hdir hwords hgoes
  rw [← hargs] at hanswer
  have hunhindered := unhindered_of_goes hc hoffice hargs hserves hdir hwords hgoes hfits
  obtain ⟨d, hrun, hd⟩ := run_of_goes hoffice hanswer hfits
  refine ⟨⟨w.made, d.disk⟩, ?_, rfl, fun next => ?_⟩
  · exact h.snoc (u := ⟨w.made, d.disk⟩) ⟨⟨hdirected, hapart, hstraight⟩, hunhindered⟩ hrun
  · refine ⟨hd.record, hd.home, hd.elsewhere, rfl, ?_, rfl⟩
    rintro _ ⟨⟩
    rfl

end Going

/-! ## A sample -/

/-- A server directory, and a file to be added. -/
def demoGround : Tree :=
  (Tree.empty.put ["srv"] .directory).put ["note"] (.file "note".toUTF8 false)

def demoPremises : Premises where
  office := ⟨[], .ofList [("NOTARY_ROOT_PASSPHRASE", "r"), ("NOTARY_TARGETS_PASSPHRASE", "t"),
    ("NOTARY_SNAPSHOT_PASSPHRASE", "s")], Main.keyName⟩
  server := "/srv"
  shelf := ["srv"]
  repo := "demo"
  login := none
  ground := demoGround

/-- A client whose trust directory is `/home`. -/
def demoVisit (base : Tree) : Visit := ⟨demoPremises, "/home", ["home"], base⟩

def demoRunner : Runner :=
  ⟨"notary", .remote "file:///srv", "", ⟨"r", "t", "s", "u"⟩, none, false⟩

/-- The tree with the empty trust directory. -/
def demoTree : Tree := demoGround.put ["home"] .directory

def demoRequest (words : List String) (input : String) : Request where
  program := "notary"
  args := demoRunner.arguments (.new "/home" words)
  stdin := input.toUTF8
  environment := demoPremises.office.environment
  here := []

theorem sound_demoPremises : demoPremises.Sound where
  located := rfl
  directory := rfl
  record_name := by decide +kernel
  record_path := by decide +kernel
  unused := rfl
  segments := by decide +kernel
  apart := by decide
  passphrases := by
    intro name hname
    simp only [passphraseNames, List.mem_cons, List.not_mem_nil, or_false] at hname
    rcases hname with rfl | rfl | rfl
    · exact ⟨"r", by decide +kernel, by decide⟩
    · exact ⟨"t", by decide +kernel, by decide⟩
    · exact ⟨"s", by decide +kernel, by decide⟩
  login := nofun

theorem sound_demoVisit {base : Tree} (hbase : demoPremises.Grounded base) :
    (demoVisit base).Sound where
  premises := sound_demoPremises
  located := (rfl : demoGround.locate [] "/home" = .ok ["home"])
  open_end := (by decide : Path.endsInSlash "/home" = false)
  free := by
    rintro _ ⟨rest, rfl⟩
    rfl
  apart := (by decide +kernel : ∀ name ∈ demoPremises.reserved, ["home"] ≠ ["srv"] ++ [name])
  keys_path := (by decide +kernel : Tree.refuse? (keysPath "/home") = none)
  staged_path := (by decide +kernel : Tree.refuse? (stagedPath "/home" "demo") = none)
  root_path := (by decide +kernel : Tree.refuse? (RootDocument.path "/home" "demo") = none)
  grounded := hbase

/-- What is on the ground stays there when something else is put on it. -/
theorem grounded_put {base : Tree} (h : demoPremises.Grounded base) {place : Location} {node : Node}
    (hplace : demoGround.find? place = none) (hstale : place ≠ ["srv", "stale_suffix"])
    (hlogin : place ≠ ["srv", "login.json"]) (hne : place ≠ []) :
    demoPremises.Grounded (base.put place node) where
  kept := by
    intro other found hfound
    rw [Tree.find?_put base hne, if_neg, h.kept other found hfound]
    rintro rfl
    rw [show demoPremises.ground = demoGround from rfl, hplace] at hfound
    cases hfound
  fresh := by
    rw [Tree.find?_put base hne, if_neg fun he => hstale he.symm]
    exact h.fresh
  unlocked := by
    intro hnone
    rw [Tree.find?_put base hne, if_neg fun he => hlogin he.symm]
    exact h.unlocked hnone

theorem grounded_demoTree : demoPremises.Grounded demoTree :=
  grounded_put ⟨fun _ _ h => h, rfl, fun _ => rfl⟩ rfl (by decide) (by decide) (by decide)

theorem regular_empty : Tree.empty.Regular := by
  intro place name h
  exact absurd (by cases place <;> rfl) h

/-- An entry at the root. -/
theorem regular_put {t : Tree} (h : t.Regular) {name : String} {node : Node}
    (hname : name.utf8ByteSize ≤ Tree.longestName) (hnone : t.find? [name] = none) :
    (t.put [name] node).Regular :=
  Tree.Regular.put (h) (rfl : t.find? [] = some .directory) hname fun hdir => by
    rw [List.nil_append, hnone] at hdir
    cases hdir

/-- A client of the demonstration names the server, and its own trust directory. -/
theorem directed_demo {disk : Tree} {request : Request} {home : Location} {trustDir : String}
    {words : List String} (hread : Flags.read request.args = (demoRunner.flags trustDir, words))
    (hhere : request.here = []) (hdots : ".." ∉ Path.parts trustDir)
    (hhome : Path.place [] trustDir = home) : Directed disk request ["srv"] home := by
  have hurl : serverDir? "file:///srv" = some "/srv" := by decide
  have hshelf : Path.place request.here "/srv" = ["srv"] := by
    rw [hhere]
    decide
  exact directed_of_onward (i := .new trustDir words) hread rfl hurl (by decide) hshelf hdots
    (hhere ▸ hhome)

/-- The demonstration goes on with a command that goes well. -/
theorem Chronicle.goes_demo {s t : Store} {pages : List Page} {base : Tree} {v w : View}
    {words : List String} {i : String} (h : Chronicle Main.keyName ["srv"] s pages t)
    (hbase : demoPremises.Grounded base)
    (hwords : ∀ w ∈ words.head?, w ∉ ["-s", "-c", "-d", "-D", "debug"])
    (hrepo : (Errand.ofWords words).repo? = some "demo")
    (hgoes : (demoVisit base).Goes (command demoPremises.office "/srv" "/home" words) v () w)
    (hfits : (demoVisit base).Fits (deskOf (demoRequest words i) t.made t.disk) v) :
    ∃ u, Chronicle Main.keyName ["srv"] s
        (pages ++ [⟨demoRequest words i, ["home"], t, true⟩]) u ∧ u.made = w.made ∧
      ∀ next, (demoVisit base).Fits (deskOf next u.made u.disk)
        { w with input := some next.stdin.data.toList, output := "" } := by
  have hread : Flags.read (demoRequest words i).args = (demoRunner.flags "/home", words) :=
    read_request (i := .new "/home" words) rfl hwords
  have hurl : serverDir? "file:///srv" = some "/srv" := by decide
  have hdirected : Directed t.disk (demoRequest words i) ["srv"] ["home"] :=
    directed_demo hread rfl (by decide) (by decide)
  have hapart : Apart ["srv"] ["home"] := ⟨by decide, by decide⟩
  refine h.goes (sound_demoVisit hbase) rfl rfl hurl rfl hwords hdirected hapart
    (fun repo hmem => ?_) hgoes hfits
  rw [errandOf, hread, hrepo] at hmem
  obtain rfl := Option.some.inj hmem
  exact ⟨by decide, by decide⟩

theorem regular_demoTree : demoTree.Regular :=
  regular_put (regular_put (regular_put regular_empty (by decide) rfl) (by decide) rfl) (by decide)
    rfl

/-- The record after the foundation, and the client's keys. -/
def demoRecord : Record := (madeKeys Main.keyName "demo" firstRoles 0 .empty []).1.bump

def demoKeys : List LocalKey := (madeKeys Main.keyName "demo" firstRoles 0 .empty []).2

/-- What the client has in front of it after the foundation. -/
def demoView (input : Option (List UInt8)) (output : String) : View :=
  ⟨some demoRecord, ⟨demoKeys, [], some demoRecord⟩, 4, input, output⟩

def demoFounding : Page := ⟨demoRequest ["init", "demo"] "", ["home"], ⟨0, demoTree⟩, true⟩

def demoTurn (t : Store) : Page :=
  ⟨demoRequest ["key", "rotate", "demo", "root"] "yes", ["home"], t, true⟩

theorem bounded_demoRecord : demoRecord.Bounded :=
  (settled_founding (Text.hexadecimal_injective 32) "demo" 0 []).bounded (by decide) nofun

theorem housed_demoTree : Housed demoTree ["home"] "demo" .empty := by
  refine Housed.empty rfl fun place hplace hne => ?_
  obtain ⟨rest, rfl⟩ := hplace
  cases rest with
  | nil => exact absurd rfl hne
  | cons name rest => rfl

theorem goes_demoFounding {base : Tree} (hbase : demoPremises.Grounded base) : ∃ output,
    (demoVisit base).Goes (command demoPremises.office "/srv" "/home" ["init", "demo"])
      ⟨none, .empty, 0, none, ""⟩ () (demoView none output) :=
  have hc := sound_demoVisit hbase
  ⟨_, (goes_login hc nofun).bind (goes_init hc rfl rfl bounded_demoRecord)⟩

theorem goes_demoTurn : ∃ w, (demoVisit demoTree).Goes
    (command demoPremises.office "/srv" "/home" ["key", "rotate", "demo", "root"])
    (demoView (some (bytes "yes")) "") () w ∧
      w.record = some (demoRecord.trust "root" (Main.keyName 4)).bump := by
  have hc := sound_demoVisit grounded_demoTree
  have hbounded : (demoRecord.trust "root" (Main.keyName 4)).bump.Bounded := ⟨by decide, nofun⟩
  have hconfirm : (demoVisit demoTree).Goes readLine (demoView (some (bytes "yes")) "") "yes"
      (demoView (some []) "") := goes_readLine_end ⟨by decide, by decide⟩ rfl
  have hlogin := goes_login (v := demoView (some []) "") hc nofun
  have hrotate := goes_rotateRoot (v := demoView none "") hc rfl hbounded
  exact ⟨_, goes_confirmed hconfirm (hlogin.bind (hrotate.bind (goes_say _))), rfl⟩

theorem Visit.Fits.content {c : Visit} {d : Desk} {v : View} {r : Record} (h : c.Fits d v)
    (hr : v.record = some r) : d.disk.content c.premises.recordPlace = some r.printed := by
  have hrecord := h.record
  rw [hr] at hrecord
  obtain ⟨-, executable, hfile⟩ := hrecord
  exact Tree.content_eq_some.2 ⟨executable, hfile⟩

/-- A repository is founded, and its root key is rotated. -/
theorem demo_history : ∃ t u : Store,
    Chronicle Main.keyName ["srv"] ⟨0, demoTree⟩ [demoFounding] t ∧
      t.disk.content (recordPlace ["srv"] "demo") = some demoRecord.printed ∧
      Chronicle Main.keyName ["srv"] t [demoTurn t] u ∧
      u.disk.content (recordPlace ["srv"] "demo") =
        some (demoRecord.trust "root" (Main.keyName 4)).bump.printed := by
  have hfits : (demoVisit demoTree).Fits (deskOf (demoRequest ["init", "demo"] "") 0 demoTree)
      ⟨none, .empty, 0, none, ""⟩ :=
    ⟨rfl, housed_demoTree, fun _ _ _ => rfl, rfl, nofun, rfl⟩
  obtain ⟨_, hfounds⟩ := goes_demoFounding grounded_demoTree
  obtain ⟨t, hfounding, -, hfounded⟩ := Chronicle.nil.goes_demo (s := ⟨0, demoTree⟩)
    grounded_demoTree (by decide) (by decide) hfounds hfits
  obtain ⟨w, hturns, hrecord⟩ := goes_demoTurn
  obtain ⟨u, hturn, -, hturned⟩ := Chronicle.nil.goes_demo (s := t) (i := "yes")
    grounded_demoTree (by decide) (by decide) hturns (hfounded _)
  exact ⟨t, u, hfounding, (hfounded (demoRequest [] "")).content rfl, hturn,
    (hturned (demoRequest [] "")).content hrecord⟩

end Notary
end TrustTrial
