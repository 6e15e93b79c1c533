import TrustTrial.Proofs.Records
import TrustTrial.Proofs.Scenes

/-!
# TrustTrial.Proofs.Acts

What each call of a scenario plays. An `Act` is a moment within a scenario: what the server records
and what the two identities hold. Each lemma below says which act a call leads to from another one,
and what it prints where the trial reads it.
-/

namespace TrustTrial

open Disk Notary Trial

/-! ## Moments -/

/-- A moment between scenarios, of which a number are over. -/
structure Pause where
  number : Nat
  record : Option Record
  made : Nat
  primary : Home

/-- A moment within a scenario. -/
structure Act extends Pause where
  payload : ByteArray
  secondary : Home

inductive Identity where
  | primary
  | secondary

namespace Pause

def scene (p : Pause) : Scene where
  record := p.record
  made := p.made
  temps := 2 * p.number + 1
  content := fun n => if n = 0 then .home p.primary else .gone

/-- A scenario that has just been set up. -/
def act (p : Pause) (scenario : Scenario) : Act := ⟨p, scenario.name.toUTF8, .empty⟩

end Pause

namespace Act

def scene (a : Act) : Scene where
  record := a.record
  made := a.made
  temps := 2 * a.number + 3
  content := fun n =>
    if n = 0 then .home a.primary
    else if n = 2 * a.number + 1 then .payload a.payload
    else if n = 2 * a.number + 2 then .home a.secondary
    else .gone

def home (a : Act) : Identity → Home
  | .primary => a.primary
  | .secondary => a.secondary

/-- What an identity and the server have come to. -/
def turn (a : Act) (record : Option Record) (made : Nat) (h : Home) : Identity → Act
  | .primary => { a with record := record, made := made, primary := h }
  | .secondary => { a with record := record, made := made, secondary := h }

/-- Both identities have just seen a record. -/
def synced (a : Act) (r : Record) : Act :=
  { a with
    primary := { a.primary with root := some r }
    secondary := { a.secondary with root := some r } }

/-- The moment after a scenario. -/
def after (a : Act) : Pause := { a.toPause with number := a.number + 1 }

/-- What the notary can see once an identity has logged in. -/
def logged (a : Act) (who : Identity) : View := ⟨a.record, a.home who, a.made, none, ""⟩

/-- The number of the entry of an identity. -/
def entryOf (a : Act) : Identity → Nat
  | .primary => 0
  | .secondary => 2 * a.number + 2

theorem entryOf_even (a : Act) (who : Identity) : a.entryOf who % 2 = 0 := by
  cases who
  · rfl
  · simp [entryOf]

theorem content_entryOf (a : Act) (who : Identity) :
    a.scene.content (a.entryOf who) = .home (a.home who) := by
  cases who
  · rfl
  · simp [scene, entryOf, home]

theorem content_payload (a : Act) : a.scene.content (2 * a.number + 1) = .payload a.payload := by
  simp [scene]

theorem turn_home (a : Act) (who : Identity) : a.turn a.record a.made (a.home who) who = a := by
  cases who <;> rfl

theorem scene_turn (a : Act) (record : Option Record) (made : Nat) (h : Home) (who : Identity) :
    (a.turn record made h who).scene =
      { a.scene.set (a.entryOf who) (.home h) with record := record, made := made } := by
  cases who
  all_goals
    refine Scene.ext rfl rfl rfl (funext fun n => ?_)
    simp only [scene, turn, Scene.set, entryOf]
    split <;> rename_i h0
  · rfl
  · rfl
  · rw [if_neg (by omega)]
  · by_cases hn : n = 2 * a.number + 2
    · simp [hn]
    · simp only [hn, if_false]

end Act

namespace Fixture

/-- How a trial of the fixture calls the client. -/
def site (F : Fixture) : Site := ⟨F.runner, F.repo, primaryOf F.machine⟩

/-- The trust directory of an identity. -/
def trustDir (F : Fixture) (a : Act) : Identity → TrustDir
  | .primary => primaryOf F.machine
  | .secondary => (standOf F.machine a.number).secondary

variable {F : Fixture} {a : Act} {who : Identity}

theorem path_trustDir (F : Fixture) (a : Act) (who : Identity) :
    (F.trustDir a who).path = entry F.machine (a.entryOf who) := by
  cases who
  · rfl
  · rw [trustDir, standOf_eq]
    rfl

/-- An act has its entries. -/
def Enough (F : Fixture) (a : Act) : Prop := 2 * a.number + 2 < F.count

theorem Enough.entryOf (h : F.Enough a) (who : Identity) : a.entryOf who < F.count := by
  have hcount : 2 * a.number + 2 < F.count := h
  cases who
  · exact Nat.zero_lt_of_lt hcount
  · exact hcount

/-! ## Words -/

theorem Named.hasNul_repo (h : F.Named) : Path.hasNul F.repo = false := by
  simp only [Path.hasNul, ← Bool.not_eq_true, List.contains_iff_mem]
  exact fun hmem => (h.letters _ hmem).2 rfl

theorem Sound.hasNul_payload (hF : F.Sound) (hk : F.Enough a) :
    Path.hasNul (standOf F.machine a.number).payload = false := by
  have hcount : 2 * a.number + 2 < F.count := hk
  rw [standOf_eq]
  exact hasNul_of_refuse? (hF.roomy.room.fits _ (by omega))

theorem passes_invocation {d : TrustDir} {args : List String}
    (h : ∀ w ∈ args, Path.hasNul w = false) (hfits : F.Fits (d.invocation args)) :
    F.Passes (d.invocation args) := ⟨rfl, h, hfits⟩

theorem worded_invocation (d : TrustDir) {word : String} (args : List String)
    (h : word ∉ ["-s", "-c", "-d", "-D", "debug"]) : Worded (d.invocation (word :: args)) := by
  rintro _ ⟨⟩
  exact h

/-! ## Calls -/

section Calls

variable {i : Invocation} {seen : View}

theorem plays_turn {record : Option Record} {made : Nat} {h : Home} {rest : Option (List UInt8)}
    {output : String} (hF : F.Sound) (hk : F.Enough a) (hi : F.Passes i) (hworded : Worded i)
    (hdir : i.trustDir = (F.trustDir a who).path)
    (hgoes : ∀ s, F.Shows a.scene s → (F.visit (a.entryOf who) s.disk).Goes
      (command F.office F.server (entry F.machine (a.entryOf who)) i.args)
      (F.sight a.scene (a.home who) i) () ⟨record, h, made, rest, output⟩) :
    F.Plays (invoke F.machine F.runner i) a.scene output (a.turn record made h who).scene := by
  intro s hs
  rw [Act.scene_turn]
  exact hs.invoke hF (hk.entryOf who) (a.entryOf_even who) (a.content_entryOf who) hi hworded
    (hdir.trans (path_trustDir F a who)) (hgoes s hs)

theorem reaches_turn {record : Option Record} {made : Nat} {h : Home} (hF : F.Sound)
    (hk : F.Enough a) (hi : F.Passes i) (hworded : Worded i)
    (hdir : i.trustDir = (F.trustDir a who).path)
    (hgoes : ∀ s, F.Shows a.scene s → ∃ rest output, (F.visit (a.entryOf who) s.disk).Goes
      (command F.office F.server (entry F.machine (a.entryOf who)) i.args)
      (F.sight a.scene (a.home who) i) () ⟨record, h, made, rest, output⟩) :
    F.Reaches (invoke F.machine F.runner i) a.scene (a.turn record made h who).scene := by
  intro s hs
  obtain ⟨rest, output, hcommand⟩ := hgoes s hs
  rw [Act.scene_turn]
  exact ⟨_, hs.invoke hF (hk.entryOf who) (a.entryOf_even who) (a.content_entryOf who) hi hworded
    (hdir.trans (path_trustDir F a who)) hcommand⟩

theorem fails_turn (hF : F.Sound) (hk : F.Enough a) (who : Identity) (hi : F.Passes i)
    (hworded : Worded i)
    (hdir : i.trustDir = (F.trustDir a who).path)
    (hstops : ∀ s, F.Shows a.scene s → (F.visit (a.entryOf who) s.disk).Stops
      (command F.office F.server (entry F.machine (a.entryOf who)) i.args)
      (F.sight a.scene (a.home who) i)) :
    F.Fails (invoke F.machine F.runner i) a.scene :=
  fails_invoke hF (hk.entryOf who) (a.entryOf_even who) (a.content_entryOf who) hi hworded
    (hdir.trans (path_trustDir F a who)) hstops

theorem sound_visit (hF : F.Sound) (hk : F.Enough a) {s : Session Nat} (hs : F.Shows a.scene s)
    (who : Identity) : (F.visit (a.entryOf who) s.disk).Sound :=
  hF.visit (hk.entryOf who) (a.entryOf_even who) (hs.grounded hF)

/-- The configured credentials are those that the server wants. -/
theorem input_answers (hF : F.Sound) (hpayload : i.payload = none) (honline : i.offline = false) :
    ∀ l ∈ F.login, F.input i = l.answers := by
  intro l hl
  obtain ⟨hcredentials, -⟩ := hF.served.login l hl
  simp [input, Invocation.answers, hpayload, honline, hcredentials, Prompts.plan, Prompts.encode,
    Answer.text, Login.answers, bytes_append]

/-- A command that logs in first. -/
theorem goes_logged (hF : F.Sound) (hk : F.Enough a) {s : Session Nat} (hs : F.Shows a.scene s)
    (hinput : ∀ l ∈ F.login, F.input i = l.answers) {x : Step Unit}
    (hx : (F.visit (a.entryOf who) s.disk).Goes x (a.logged who) () seen) :
    (F.visit (a.entryOf who) s.disk).Goes (do Notary.login F.office.here F.server; x)
      (F.sight a.scene (a.home who) i) () seen :=
  (goes_login (sound_visit hF hk hs who) fun l hl => congrArg some (hinput l hl)).bind hx

theorem stops_logged (hF : F.Sound) (hk : F.Enough a) {s : Session Nat} (hs : F.Shows a.scene s)
    (hinput : ∀ l ∈ F.login, F.input i = l.answers) {x : Step Unit}
    (hx : (F.visit (a.entryOf who) s.disk).Stops x (a.logged who)) :
    (F.visit (a.entryOf who) s.disk).Stops (do Notary.login F.office.here F.server; x)
      (F.sight a.scene (a.home who) i) :=
  (goes_login (sound_visit hF hk hs who) fun l hl => congrArg some (hinput l hl)).stop hx

end Calls

section Commands

variable {r : Record}

/-! ### Initializing and publishing -/

theorem passes_init (hF : F.Sound) (d : TrustDir) (hfits : F.Fits (d.invocation ["init", F.repo])) :
    F.Passes (d.invocation ["init", F.repo]) :=
  passes_invocation
    (by simp [hF.named.hasNul_repo, show Path.hasNul "init" = false by decide]) hfits

theorem plays_init (hF : F.Sound) (hk : F.Enough a)
    (hfits : F.Fits ((primaryOf F.machine).invocation ["init", F.repo])) (hrecord : a.record = none)
    {keys : List LocalKey}
    (hmade : madeKeys F.keyName F.repo firstRoles a.made .empty a.primary.keys = (r, keys))
    (hr : r.bump.Bounded) :
    F.Reaches (invoke F.machine F.runner ((primaryOf F.machine).invocation ["init", F.repo]))
      a.scene
      (a.turn (some r.bump) (a.made + 4) ⟨keys, a.primary.staged, some r.bump⟩ .primary).scene := by
  have hworded : Worded ((primaryOf F.machine).invocation ["init", F.repo]) :=
    worded_invocation _ _ (by decide)
  refine reaches_turn hF hk (passes_init hF _ hfits) hworded rfl fun s hs => ?_
  have hinit := goes_init (v := a.logged .primary) (sound_visit hF hk hs .primary) hrecord hmade hr
  exact ⟨_, _, goes_logged hF hk hs (input_answers hF rfl rfl) hinit⟩

theorem fails_init (hF : F.Sound) (hk : F.Enough a)
    (hfits : F.Fits ((primaryOf F.machine).invocation ["init", F.repo]))
    (hrecord : a.record = some r) :
    F.Fails (invoke F.machine F.runner ((primaryOf F.machine).invocation ["init", F.repo]))
      a.scene := by
  have hworded : Worded ((primaryOf F.machine).invocation ["init", F.repo]) :=
    worded_invocation _ _ (by decide)
  exact fails_turn hF hk .primary (passes_init hF _ hfits) hworded rfl fun s hs =>
    stops_logged hF hk hs (input_answers hF rfl rfl)
      (stops_init (sound_visit hF hk hs .primary) hrecord)

/-- The primary identity can read the payload. -/
theorem goes_readPayload (hF : F.Sound) (hk : F.Enough a) {s : Session Nat}
    (hs : F.Shows a.scene s) (v : View) :
    (F.visit (a.entryOf .primary) s.disk).Goes
      (readBytes F.office.here (standOf F.machine a.number).payload) v a.payload v := by
  have hcount : 2 * a.number + 2 < F.count := hk
  have hn : 2 * a.number + 1 < F.count := by omega
  have hentry := hs.entries _ hn
  rw [a.content_payload] at hentry
  obtain ⟨executable, hfile⟩ := hentry
  have hlocate := hF.roomy.room.locate_entry (fun _ hplace => hplace) hn
  rw [standOf_eq]
  refine goes_readBytes (sound_visit hF hk hs .primary) hlocate ?_ ?_ hfile
  · intro he
    exact hF.place_apart hn (show F.premises.recordName ∈ _ by simp [Premises.reserved])
      (he ▸ List.prefix_rfl)
  · intro hbelow
    exact absurd ((hF.roomy.room.place_inj (hk.entryOf .primary) hn).1 hbelow)
      (by simp [Act.entryOf])

/-- The request to add the payload under a name. -/
def addition (F : Fixture) (a : Act) (target : String) : Invocation :=
  (primaryOf F.machine).invocation ["add", F.repo, target, (standOf F.machine a.number).payload]

theorem plays_add (hF : F.Sound) (hk : F.Enough a) {target : String}
    (hfits : F.Fits (F.addition a target)) (htarget : Path.hasNul target = false)
    (hsize : a.payload.size ≤ Text.maxWord)
    (hsizes : ∀ s ∈ a.primary.staged, s.target.size ≤ Text.maxWord) :
    F.Plays (add F.machine F.site (standOf F.machine a.number) target) a.scene ()
      (a.turn a.record a.made
        { a.primary with staged := a.primary.staged ++ [⟨target, .ofContent a.payload⟩] }
        .primary).scene := by
  have hpasses : F.Passes (F.addition a target) :=
    passes_invocation (by simp [hF.named.hasNul_repo, htarget, hF.hasNul_payload hk,
      show Path.hasNul "add" = false by decide]) hfits
  have hworded : Worded (F.addition a target) := worded_invocation _ _ (by decide)
  refine Reaches.bind (reaches_turn hF hk hpasses hworded rfl fun s hs => ?_) fun _ => plays_pure
  exact ⟨_, _, goes_add (v := F.sight a.scene a.primary _) (sound_visit hF hk hs .primary)
    (goes_readPayload hF hk hs _) hsize hsizes⟩

theorem passes_publish (hF : F.Sound) (d : TrustDir)
    (hfits : F.Fits (d.invocation ["publish", F.repo])) :
    F.Passes (d.invocation ["publish", F.repo]) :=
  passes_invocation
    (by simp [hF.named.hasNul_repo, show Path.hasNul "publish" = false by decide]) hfits

theorem worded_publish (F : Fixture) (d : TrustDir) : Worded (d.invocation ["publish", F.repo]) :=
  worded_invocation _ _ (by decide)

theorem plays_publish (hF : F.Sound) (hk : F.Enough a) (who : Identity)
    (hfits : F.Fits ((F.trustDir a who).invocation ["publish", F.repo]))
    (hrecord : a.record = some r) (hstaged : (a.home who).staged ≠ [])
    (hr : (r.publish (a.home who).staged).bump.Bounded) :
    F.Plays (publish F.machine F.site (F.trustDir a who)) a.scene ()
      (a.turn (some (r.publish (a.home who).staged).bump) a.made
        ⟨(a.home who).keys, [], some (r.publish (a.home who).staged).bump⟩ who).scene := by
  refine Reaches.bind (reaches_turn hF hk (passes_publish hF _ hfits) (worded_publish F _) rfl
    fun s hs => ?_) fun _ => plays_pure
  have hpublish := goes_publish (v := a.logged who) (sound_visit hF hk hs who) hrecord hstaged hr
  exact ⟨_, _, goes_logged hF hk hs (input_answers hF rfl rfl) hpublish⟩

theorem plays_publish_nothing (hF : F.Sound) (hk : F.Enough a) (who : Identity)
    (hfits : F.Fits ((F.trustDir a who).invocation ["publish", F.repo]))
    (hrecord : a.record = some r) (hstaged : (a.home who).staged = [])
    (hversion : r.version ≤ Text.maxWord) :
    F.Plays (publish F.machine F.site (F.trustDir a who)) a.scene ()
      (a.turn a.record a.made { a.home who with root := some r } who).scene := by
  refine Reaches.bind (reaches_turn hF hk (passes_publish hF _ hfits) (worded_publish F _) rfl
    fun s hs => ?_) fun _ => plays_pure
  have hpublish := goes_publish_nothing (v := a.logged who) (sound_visit hF hk hs who) hrecord
    hstaged hversion
  exact ⟨_, _, goes_logged hF hk hs (input_answers hF rfl rfl) hpublish⟩

/-! ### Looking -/

theorem passes_list (hF : F.Sound) (d : TrustDir) (hfits : F.Fits (d.invocation ["list", F.repo])) :
    F.Passes (d.invocation ["list", F.repo]) :=
  passes_invocation
    (by simp [hF.named.hasNul_repo, show Path.hasNul "list" = false by decide]) hfits

theorem worded_list (F : Fixture) (d : TrustDir) : Worded (d.invocation ["list", F.repo]) :=
  worded_invocation _ _ (by decide)

theorem plays_list (hF : F.Sound) (hk : F.Enough a) (who : Identity)
    (hfits : F.Fits ((F.trustDir a who).invocation ["list", F.repo])) (hrecord : a.record = some r)
    (hversion : r.version ≤ Text.maxWord) :
    F.Plays (listTargets F.machine F.site (F.trustDir a who)) a.scene (targetTable r.targets)
      (a.turn a.record a.made { a.home who with root := some r } who).scene := by
  have hplays := plays_turn hF hk (passes_list hF _ hfits) (worded_list F _) rfl fun s hs =>
    goes_logged hF hk hs (input_answers hF rfl rfl)
      (goes_list (v := a.logged who) (sound_visit hF hk hs who) hrecord hversion)
  rwa [show (a.logged who).output = "" from rfl, String.empty_append] at hplays

theorem fails_list (hF : F.Sound) (hk : F.Enough a) (who : Identity)
    (hfits : F.Fits ((F.trustDir a who).invocation ["list", F.repo])) (hrecord : a.record = none) :
    F.Fails (listTargets F.machine F.site (F.trustDir a who)) a.scene :=
  fails_turn hF hk who (passes_list hF _ hfits) (worded_list F _) rfl fun _ hs =>
    stops_logged hF hk hs (input_answers hF rfl rfl)
      (stops_list (sound_visit hF hk hs who) hrecord)

theorem plays_listKeys (hF : F.Sound) (hk : F.Enough a) (who : Identity)
    (hfits : F.Fits ((F.trustDir a who).invocation ["key", "list"])) :
    F.Plays (listKeys F.machine F.site (F.trustDir a who)) a.scene
      (KeyListing.read
        (keyTable (privateDir (entry F.machine (a.entryOf who))) (a.home who).keys)) a.scene := by
  have hpasses : F.Passes ((F.trustDir a who).invocation ["key", "list"]) :=
    passes_invocation (by decide) hfits
  have hworded : Worded ((F.trustDir a who).invocation ["key", "list"]) :=
    worded_invocation _ _ (by decide)
  have hgoes : ∀ s, F.Shows a.scene s → (F.visit (a.entryOf who) s.disk).Goes
      (Notary.listKeys F.office (entry F.machine (a.entryOf who)))
      (F.sight a.scene (a.home who) ((F.trustDir a who).invocation ["key", "list"])) ()
      ⟨a.record, a.home who, a.made,
        some (F.input ((F.trustDir a who).invocation ["key", "list"])),
        "" ++ keyTable (privateDir (entry F.machine (a.entryOf who))) (a.home who).keys⟩ :=
    fun s hs => goes_listKeys (sound_visit hF hk hs who)
  have hplays := plays_turn hF hk hpasses hworded rfl hgoes
  rw [String.empty_append, a.turn_home] at hplays
  exact hplays.bind plays_pure

/-- The check of a published target against the payload. -/
def verification (F : Fixture) (a : Act) (target : String) : Invocation :=
  ((primaryOf F.machine).invocation
    ["verify", F.repo, target, "-i", (standOf F.machine a.number).payload, "-q"]).withoutCredentials

theorem plays_verify (hF : F.Sound) (hk : F.Enough a) (hrecord : a.record = some r)
    {target : String} (hfits : F.Fits (F.verification a target)) (hnul : Path.hasNul target = false)
    (htarget : r.targets.get? target = some (.ofContent a.payload)) :
    F.Reaches (invoke F.machine F.runner (F.verification a target)) a.scene a.scene := by
  have hpasses : F.Passes (F.verification a target) :=
    ⟨rfl, by simp [verification, TrustDir.invocation, Invocation.new,
      Invocation.withoutCredentials, hF.named.hasNul_repo, hnul, hF.hasNul_payload hk,
      show Path.hasNul "verify" = false by decide, show Path.hasNul "-i" = false by decide,
      show Path.hasNul "-q" = false by decide], hfits⟩
  have hworded : Worded (F.verification a target) := by
    rintro _ ⟨⟩
    decide
  rw [show a.scene = (a.turn a.record a.made a.primary .primary).scene from rfl]
  refine reaches_turn hF hk hpasses hworded rfl fun s hs => ?_
  exact ⟨_, _, goes_verify (v := F.sight a.scene a.primary _) (sound_visit hF hk hs .primary) hrecord
    htarget (goes_readPayload hF hk hs _)⟩

/-- The root document of an identity is that of the record it has seen last. -/
theorem plays_loadRoot (hF : F.Sound) (hk : F.Enough a) (who : Identity)
    (hroot : (a.home who).root = some r) :
    F.Plays (loadRoot F.machine F.site (F.trustDir a who)) a.scene r.seen a.scene := by
  refine plays_quiet (quiet_loadRoot _ _ _) fun s hs => ?_
  have hentry := hs.entries _ (hk.entryOf who)
  rw [a.content_entryOf] at hentry
  have hhoused : Housed s.disk (F.place (a.entryOf who)) F.repo (a.home who) := hentry
  obtain ⟨hversion, hholds⟩ := hhoused.root r hroot
  have hleads := (sound_visit hF hk hs who).leads_root (hs.grounded hF)
  have hclear := (hhoused.tidy (.root F.repo) (by simp [spots])).1
  have htext : s.disk.readText F.machine.here
      (RootDocument.path (entry F.machine (a.entryOf who)) F.repo) = .ok r.rootDocument.pretty :=
    (leads_of_holds hleads hclear hholds).2
  have hload : RootDocument.load s.disk F.machine.here (F.trustDir a who).path F.site.repo =
      .ok r.seen := by
    rw [path_trustDir]
    exact load_of_readText htext (read_rootDocument hversion)
  rw [(run_loadRoot_ok (t := s.note (.loaded r.seen))).2 ⟨hload, rfl⟩]

/-! ### Rotating -/

theorem hasNul_rotate (hF : F.Sound) {words : List String}
    (hwords : ∀ w ∈ words, Path.hasNul w = false) :
    ∀ w ∈ "key" :: "rotate" :: F.repo :: words, Path.hasNul w = false := by
  simp only [List.forall_mem_cons, hF.named.hasNul_repo, true_and]
  exact ⟨by decide, by decide, hwords⟩

/-- The request to let the server manage the snapshot key. -/
def snapshotRequest (F : Fixture) : Invocation :=
  (primaryOf F.machine).invocation ["key", "rotate", F.repo, "snapshot", "-r"]

theorem passes_snapshotRequest (hF : F.Sound) (hfits : F.Fits F.snapshotRequest) :
    F.Passes F.snapshotRequest :=
  passes_invocation (hasNul_rotate hF (by decide)) hfits

theorem plays_rotateSnapshot (hF : F.Sound) (hk : F.Enough a) (hfits : F.Fits F.snapshotRequest)
    (hrecord : a.record = some r)
    (hr : ((r.dropKeys "snapshot").trust "snapshot" (F.keyName a.made)).bump.Bounded) :
    F.Reaches (invoke F.machine F.runner F.snapshotRequest) a.scene
      (a.turn (some ((r.dropKeys "snapshot").trust "snapshot" (F.keyName a.made)).bump) (a.made + 1)
        ⟨keysWithout "snapshot" F.repo a.primary.keys, a.primary.staged,
          some ((r.dropKeys "snapshot").trust "snapshot" (F.keyName a.made)).bump⟩
        .primary).scene := by
  have hworded : Worded F.snapshotRequest := worded_invocation _ _ (by decide)
  refine reaches_turn hF hk (passes_snapshotRequest hF hfits) hworded rfl fun s hs => ?_
  have hvisit := sound_visit hF hk hs .primary
  have hrotate := goes_rotateOther (v := a.logged .primary) hvisit hrecord hr
  exact ⟨_, _, goes_logged hF hk hs (input_answers hF rfl rfl) (hrotate.bind (goes_say _))⟩

theorem fails_rotateSnapshot (hF : F.Sound) (hk : F.Enough a) (hfits : F.Fits F.snapshotRequest)
    (hrecord : a.record = none) :
    F.Fails (invoke F.machine F.runner F.snapshotRequest) a.scene := by
  have hworded : Worded F.snapshotRequest := worded_invocation _ _ (by decide)
  refine fails_turn hF hk .primary (passes_snapshotRequest hF hfits) hworded rfl
    fun s hs => ?_
  exact stops_logged hF hk hs (input_answers hF rfl rfl)
    (stops_rotateOther (sound_visit hF hk hs .primary) hrecord "snapshot" true).bind

/-- A rotation of the root key, with its confirmation. -/
def rootRequest (F : Fixture) : Invocation :=
  ((primaryOf F.machine).invocation ["key", "rotate", F.repo, "root"]).withPayload
    rotationConfirmation

/-- The confirmation is the first line, and the credentials follow it. -/
theorem goes_confirmation (hF : F.Sound) (c : Visit) (v : View)
    (hinput : v.input = some (F.input F.rootRequest)) :
    ∃ rest, c.Goes readLine v "yes" { v with input := some rest } ∧
      ∀ l ∈ F.login, rest = l.answers := by
  have hyes : Typed "yes" := ⟨by decide, by decide⟩
  cases hcredentials : F.runner.credentials with
  | none =>
    refine ⟨[], goes_readLine_end hyes (hinput.trans ?_), fun l hl => ?_⟩
    · simp [input, rootRequest, Invocation.answers, TrustDir.invocation, Invocation.new,
        Invocation.withPayload, hcredentials, Prompts.plan, Prompts.encode, rotationConfirmation]
    · obtain ⟨h, -⟩ := hF.served.login l hl
      rw [hcredentials] at h
      cases h
  | some c =>
    refine ⟨bytes (c.username ++ "\n") ++ bytes (c.password ++ "\n"),
      goes_readLine hyes _ (hinput.trans ?_), fun l hl => ?_⟩
    · simp [input, rootRequest, Invocation.answers, TrustDir.invocation, Invocation.new,
        Invocation.withPayload, hcredentials, Prompts.plan, Prompts.encode, rotationConfirmation,
        Answer.text, bytes_append]
    · obtain ⟨h, -⟩ := hF.served.login l hl
      rw [hcredentials] at h
      cases h
      rfl

theorem plays_rotateRoot (hF : F.Sound) (hk : F.Enough a) (hfits : F.Fits F.rootRequest)
    (hrecord : a.record = some r)
    (hr : (r.trust "root" (F.keyName a.made)).bump.Bounded) :
    F.Reaches (invoke F.machine F.runner F.rootRequest) a.scene
      (a.turn (some (r.trust "root" (F.keyName a.made)).bump) (a.made + 1)
        ⟨a.primary.keys ++ [⟨"root", "", F.keyName a.made⟩], a.primary.staged,
          some (r.trust "root" (F.keyName a.made)).bump⟩ .primary).scene := by
  have hroot : ∀ w ∈ ["root"], Path.hasNul w = false := by decide
  have hpasses : F.Passes F.rootRequest := ⟨rfl, hasNul_rotate hF hroot, hfits⟩
  have hworded : Worded F.rootRequest := by
    rintro _ ⟨⟩
    decide
  refine reaches_turn hF hk hpasses hworded rfl fun s hs => ?_
  have hc := sound_visit hF hk hs .primary
  obtain ⟨rest, hconfirm, hrest⟩ := goes_confirmation hF (F.visit (a.entryOf .primary) s.disk)
    (F.sight a.scene a.primary F.rootRequest) rfl
  let confirmed : View := { F.sight a.scene a.primary F.rootRequest with input := some rest }
  have hlogin := goes_login (v := confirmed) hc fun l hl => congrArg some (hrest l hl)
  have hrotate := goes_rotateRoot (v := a.logged .primary) hc hrecord hr
  exact ⟨_, _, goes_confirmed hconfirm (hlogin.bind (hrotate.bind (goes_say _)))⟩

end Commands

end Fixture
end TrustTrial
