import TrustTrial.Proofs.Tables
import TrustTrial.Proofs.Visits
import TrustTrial.Runner

/-!
# TrustTrial.Proofs.Commands

What each command of the notary leads to, for a client that finds what it needs.
-/

namespace TrustTrial
namespace Notary

section Commands

variable {c : Visit} {v : View}

/-- The keys that are made for roles, from a number on. -/
def madeKeys (keyName : Nat → String) (repo : String) :
    List String → Nat → Record → List LocalKey → Record × List LocalKey
  | [], _, r, keys => (r, keys)
  | role :: roles, n, r, keys =>
    madeKeys keyName repo roles (n + 1) (r.trust role (keyName n))
      (if role = "timestamp" then keys else keys ++ [⟨role, gunOf role repo, keyName n⟩])

theorem goes_makeKeys (roles : List String) (r : Record) (keys : List LocalKey) :
    c.Goes (makeKeys c.premises.office c.premises.repo roles r keys) v
      (madeKeys c.premises.office.keyName c.premises.repo roles v.made r keys)
      { v with made := v.made + roles.length } := by
  induction roles generalizing v r keys with
  | nil => exact goes_pure
  | cons role roles ih =>
    have hrest := ih (v := { v with made := v.made + 1 })
      (r.trust role (c.premises.office.keyName v.made))
      (if role = "timestamp" then keys
        else keys ++ [⟨role, gunOf role c.premises.repo, c.premises.office.keyName v.made⟩])
    refine goes_newKey.bind ?_
    simpa [madeKeys, Nat.add_assoc, Nat.add_comm 1] using hrest

theorem goes_init (hc : c.Sound) (hrecord : v.record = none) {r : Record} {keys : List LocalKey}
    (hmade : madeKeys c.premises.office.keyName c.premises.repo firstRoles v.made .empty
      v.home.keys = (r, keys)) (hr : r.bump.Bounded) :
    c.Goes (init c.premises.office c.premises.server c.trustDir c.premises.repo) v ()
      { v with
        record := some r.bump
        home := ⟨keys, v.home.staged, some r.bump⟩
        made := v.made + 4
        output := v.output ++ ("Root key found, using: " ++
          ((r.bump.roles.get? "root").getD []).headD "" ++ "\n") } := by
  refine (goes_requirePassphrase hc.premises (by simp [passphraseNames])).bind ?_
  refine (goes_requirePassphrase hc.premises (by simp [passphraseNames])).bind ?_
  refine (goes_requirePassphrase hc.premises (by simp [passphraseNames])).bind ?_
  refine (goes_present_record hc).bind ?_
  simp only [hrecord, Option.isSome_none, Bool.false_eq_true, if_false]
  have hmake := goes_makeKeys (c := c) (v := v) firstRoles .empty v.home.keys
  rw [hmade] at hmake
  refine (goes_loadKeys hc).bind (hmake.bind ((goes_saveRecord hc hr).bind ?_))
  refine (goes_saveKeys hc _).bind ((goes_sync hc hr.version).bind ?_)
  exact goes_say _

theorem stops_init (hc : c.Sound) {r : Record} (hrecord : v.record = some r) :
    c.Stops (init c.premises.office c.premises.server c.trustDir c.premises.repo) v := by
  refine (goes_requirePassphrase hc.premises (by simp [passphraseNames])).stop ?_
  refine (goes_requirePassphrase hc.premises (by simp [passphraseNames])).stop ?_
  refine (goes_requirePassphrase hc.premises (by simp [passphraseNames])).stop ?_
  refine (goes_present_record hc).stop ?_
  simp only [hrecord, Option.isSome_some, if_true]
  exact (stops_throw rfl).bind

theorem goes_add (hc : c.Sound) {name path : String} {data : ByteArray}
    (hpath : c.Goes (readBytes c.premises.office.here path) v data v)
    (hsize : data.size ≤ Text.maxWord)
    (hsizes : ∀ s ∈ v.home.staged, s.target.size ≤ Text.maxWord) :
    c.Goes (add c.premises.office c.trustDir c.premises.repo name path) v ()
      { v with
        home := { v.home with staged := v.home.staged ++ [⟨name, .ofContent data⟩] }
        output := v.output ++ ("Addition of target \"" ++ name ++ "\" to repository \"" ++
          c.premises.repo ++ "\" staged for next publish." ++ "\n") } := by
  refine hpath.bind ((goes_loadStaged hc).bind ((goes_saveStaged hc ?_).bind (goes_say _)))
  intro s hs
  rcases List.mem_append.1 hs with hs | hs
  · exact hsizes s hs
  · rw [List.mem_singleton.1 hs]
    exact hsize

/-- A record whose next version is small enough can be counted on. -/
theorem goes_countOn {r : Record} (hversion : r.version + 1 ≤ Text.maxWord) :
    c.Goes (countOn r) v () v := by
  rw [countOn, if_pos (Nat.lt_of_succ_le hversion)]
  exact goes_pure

/-- Publishing what is staged. -/
theorem goes_publish (hc : c.Sound) {r : Record} (hrecord : v.record = some r)
    (hstaged : v.home.staged ≠ []) (hr : (r.publish v.home.staged).bump.Bounded) :
    c.Goes (publish c.premises.office c.premises.server c.trustDir c.premises.repo) v ()
      { v with
        record := some (r.publish v.home.staged).bump
        home := ⟨v.home.keys, [], some (r.publish v.home.staged).bump⟩
        output := v.output ++ ("Successfully published changes for repository " ++
          c.premises.repo ++ "\n") } := by
  have hempty : v.home.staged.isEmpty = false := by simpa using hstaged
  refine (goes_loadRecord hc hrecord).bind ((goes_loadStaged hc).bind ?_)
  simp only [hempty, Bool.false_eq_true, if_false]
  refine (goes_countOn hr.version).bind ((goes_saveRecord hc hr).bind ?_)
  refine Visit.Goes.bind (goes_removeStaged hc (by exact hstaged)) ?_
  exact (goes_say _).bind (goes_sync hc hr.version)

/-- Publishing when nothing is staged. -/
theorem goes_publish_nothing (hc : c.Sound) {r : Record} (hrecord : v.record = some r)
    (hstaged : v.home.staged = []) (hversion : r.version ≤ Text.maxWord) :
    c.Goes (publish c.premises.office c.premises.server c.trustDir c.premises.repo) v ()
      { v with
        home := { v.home with root := some r }
        output := v.output ++ ("No unpublished changes for " ++ c.premises.repo ++ "\n") } := by
  have hempty : v.home.staged.isEmpty = true := by simp [hstaged]
  refine (goes_loadRecord hc hrecord).bind ((goes_loadStaged hc).bind ?_)
  simp only [hempty, if_true]
  exact (goes_say _).bind (goes_sync hc hversion)

theorem goes_list (hc : c.Sound) {r : Record} (hrecord : v.record = some r)
    (hversion : r.version ≤ Text.maxWord) :
    c.Goes (list c.premises.office c.premises.server c.trustDir c.premises.repo) v ()
      { v with
        home := { v.home with root := some r }
        output := v.output ++ targetTable r.targets } := by
  refine (goes_loadRecord hc hrecord).bind ((goes_sync hc hversion).bind ((goes_print _).bind ?_))
  refine (goes_isStale hc).bind ?_
  simp only [Bool.false_eq_true, if_false]
  have hprint := goes_print (c := c) (v := { v with
    home := { v.home with root := some r }
    output := v.output ++ lines targetHeader }) (lines (targetRows r.targets))
  simpa [targetTable, String.append_assoc] using hprint

theorem stops_list (hc : c.Sound) (hrecord : v.record = none) :
    c.Stops (list c.premises.office c.premises.server c.trustDir c.premises.repo) v :=
  (stops_loadRecord hc hrecord).bind

theorem goes_verify (hc : c.Sound) {name path : String} {data : ByteArray} {r : Record}
    (hrecord : v.record = some r) (htarget : r.targets.get? name = some (.ofContent data))
    (hpath : c.Goes (readBytes c.premises.office.here path) v data v) :
    c.Goes (verify c.premises.office c.premises.server c.premises.repo name path) v () v := by
  refine (goes_loadRecord hc hrecord).bind ?_
  simp only [htarget]
  refine hpath.bind ?_
  simp only [if_true]
  exact goes_pure

theorem goes_listKeys (hc : c.Sound) :
    c.Goes (listKeys c.premises.office c.trustDir) v ()
      { v with output := v.output ++ keyTable (privateDir c.trustDir) v.home.keys } := by
  refine (goes_loadKeys hc).bind ((goes_print _).bind ?_)
  have hprint := goes_print (c := c) (v := { v with output := v.output ++ lines keyHeader })
    (lines (keyRows (privateDir c.trustDir) v.home.keys))
  simpa [keyTable, String.append_assoc] using hprint

theorem goes_rotateRoot (hc : c.Sound) {r : Record} (hrecord : v.record = some r)
    (hr : (r.trust "root" (c.premises.office.keyName v.made)).bump.Bounded) :
    c.Goes (rotateRoot c.premises.office c.premises.server c.trustDir c.premises.repo) v ()
      { v with
        record := some (r.trust "root" (c.premises.office.keyName v.made)).bump
        home := ⟨v.home.keys ++ [⟨"root", "", c.premises.office.keyName v.made⟩], v.home.staged,
          some (r.trust "root" (c.premises.office.keyName v.made)).bump⟩
        made := v.made + 1 } := by
  refine (goes_loadRecord hc hrecord).bind ((goes_loadKeys hc).bind ?_)
  refine (goes_requirePassphrase hc.premises (by simp [passphraseNames])).bind ?_
  refine (goes_countOn hr.version).bind (goes_newKey.bind ((goes_saveRecord hc hr).bind ?_))
  exact (goes_saveKeys hc _).bind (goes_sync hc hr.version)

/-- A rotation of the root key that has been confirmed. -/
theorem goes_confirmed (hconfirm : c.Goes readLine u "yes" v)
    (hrotate : c.Goes (do
      login c.premises.office.here c.premises.server
      rotateRoot c.premises.office c.premises.server c.trustDir c.premises.repo
      say ("Successfully rotated root key for repository " ++ c.premises.repo)) v () w) :
    c.Goes (rotate c.premises.office c.premises.server c.trustDir c.premises.repo "root" []) u ()
      w := by
  have hyes : Text.trim "yes" = "yes" := by decide
  rw [rotate, if_pos rfl]
  refine hconfirm.bind ?_
  rw [if_pos hyes]
  exact hrotate

/-- The keys that a client keeps when the server takes over a role. -/
def keysWithout (role repo : String) (keys : List LocalKey) : List LocalKey :=
  keys.filter (fun k => !(k.role = role && k.gun = repo))

/-- The server takes over a role. -/
theorem goes_rotateOther (hc : c.Sound) {r : Record} {role : String} (hrecord : v.record = some r)
    (hr : ((r.dropKeys role).trust role (c.premises.office.keyName v.made)).bump.Bounded) :
    c.Goes (rotateOther c.premises.office c.premises.server c.trustDir c.premises.repo role true) v
      ()
      { v with
        record := some ((r.dropKeys role).trust role (c.premises.office.keyName v.made)).bump
        home := ⟨keysWithout role c.premises.repo v.home.keys, v.home.staged,
          some ((r.dropKeys role).trust role (c.premises.office.keyName v.made)).bump⟩
        made := v.made + 1 } := by
  refine (goes_loadRecord hc hrecord).bind ((goes_loadKeys hc).bind ?_)
  refine (goes_countOn hr.version).bind (goes_newKey.bind ((goes_saveRecord hc hr).bind ?_))
  exact (goes_saveKeys hc _).bind (goes_sync hc hr.version)

theorem stops_rotateOther (hc : c.Sound) (hrecord : v.record = none) (role : String)
    (managed : Bool) :
    c.Stops (rotateOther c.premises.office c.premises.server c.trustDir c.premises.repo role
      managed) v :=
  (stops_loadRecord hc hrecord).bind

end Commands

/-! ## Arguments -/

namespace Flags

theorem take_command {words : List String} (f : Flags)
    (hwords : ∀ w ∈ words.head?, w ∉ ["-s", "-c", "-d", "-D"]) : take f words = (f, words) := by
  cases words with
  | nil => rfl
  | cons w rest =>
    have hw := hwords w rfl
    simp only [List.mem_cons, List.not_mem_nil, or_false, not_or] at hw
    cases rest with
    | nil => simp [take, hw]
    | cons b rest => simp [take, hw]

end Flags

end Notary

/-- The flags that a runner gives for a trust directory, as the notary understands them. -/
def Runner.flags (r : Runner) (trustDir : String) : Notary.Flags :=
  match r.server with
  | .remote url => ⟨some url, false, none, some trustDir⟩
  | .embedded => ⟨none, true, some r.localConfig, some trustDir⟩

namespace Notary

/-- The flags that a runner puts in front of a call are taken off it, whatever their values are. -/
theorem read_arguments_eq (r : Runner) (i : Invocation) :
    Flags.read (r.arguments i) = Flags.take (r.flags i.trustDir) i.args := by
  rw [Flags.read, Runner.arguments, Runner.serverFlags, Runner.flags]
  cases r.server <;> simp [Flags.take, Flags.blank]

/-- The notary takes the flags of a call apart as the runner has put them together. -/
theorem read_arguments (r : Runner) (i : Invocation)
    (hwords : ∀ w ∈ i.args.head?, w ∉ ["-s", "-c", "-d", "-D"]) :
    Flags.read (r.arguments i) = (r.flags i.trustDir, i.args) := by
  rw [read_arguments_eq, Flags.take_command _ hwords]

/-- The server of a runner is the one that the notary works on. -/
def Serves (r : Runner) (p : Premises) : Prop :=
  match r.server with
  | .remote url => serverDir? url = some p.server
  | .embedded => ∃ text v, p.ground.readText p.office.here r.localConfig = .ok text ∧
    Json.read .anything text = .ok v ∧ storage? v = some p.server

section Answers

variable {c : Visit} {v w : View} {r : Runner} {i : Invocation}

theorem goes_openServer (hc : c.Sound) (hserves : Serves r c.premises) (trustDir : String) :
    c.Goes (openServer c.premises.office.here (r.flags trustDir)) v c.premises.server v := by
  intro d hd
  refine ⟨d, ?_, hd⟩
  rw [Serves] at hserves
  cases hserver : r.server with
  | remote url =>
    rw [hserver] at hserves
    simp only [openServer, Runner.flags, hserver, hserves]
    rfl
  | embedded =>
    rw [hserver] at hserves
    obtain ⟨text, value, htext, hread, hstorage⟩ := hserves
    have hkept := readText_kept (hd.grounded hc).kept htext
    have hstep : Step.run (readText c.premises.office.here r.localConfig) d = (.ok text, d) := by
      simp only [Step.run, readText, look, hkept]
    simp only [openServer, Runner.flags, hserver]
    rw [Step.run_bind, hstep]
    simp only [hread, hstorage]
    rfl

theorem answer_eq (o : Office)
    (hwords : ∀ w ∈ i.args.head?, w ∉ ["-s", "-c", "-d", "-D", "debug"]) :
    answer o (r.arguments i) = (do
      let server ← openServer o.here (r.flags i.trustDir)
      command o server i.trustDir i.args
      pure 0) := by
  have hread := read_arguments r i fun w hw hmem => hwords w hw (by
    simp only [List.mem_cons, List.not_mem_nil, or_false] at hmem ⊢
    rcases hmem with h | h | h | h <;> simp [h])
  have htrustDir : (r.flags i.trustDir).trustDir = some i.trustDir := by
    rw [Runner.flags]
    split <;> rfl
  rw [answer, hread]
  split
  · rename_i f words heq
    have hargs := (Prod.mk.inj heq).2
    exact absurd (by simp) (hwords "debug" (by simp [hargs]))
  · rename_i f words _ heq
    obtain ⟨rfl, rfl⟩ := Prod.mk.inj heq
    rw [htrustDir]

theorem goes_answer (hc : c.Sound) (hserves : Serves r c.premises) (hdir : i.trustDir = c.trustDir)
    (hwords : ∀ w ∈ i.args.head?, w ∉ ["-s", "-c", "-d", "-D", "debug"])
    (hcommand : c.Goes (command c.premises.office c.premises.server c.trustDir i.args) v () w) :
    c.Goes (answer c.premises.office (r.arguments i)) v 0 w := by
  rw [answer_eq _ hwords, hdir]
  exact (goes_openServer hc hserves _).bind (hcommand.bind goes_pure)

theorem stops_answer (hc : c.Sound) (hserves : Serves r c.premises) (hdir : i.trustDir = c.trustDir)
    (hwords : ∀ w ∈ i.args.head?, w ∉ ["-s", "-c", "-d", "-D", "debug"])
    (hcommand : c.Stops (command c.premises.office c.premises.server c.trustDir i.args) v) :
    c.Stops (answer c.premises.office (r.arguments i)) v := by
  rw [answer_eq _ hwords, hdir]
  exact (goes_openServer hc hserves _).stop hcommand.bind

/-- A run that goes well. -/
theorem run_of_goes {request : Request} {keyName : Nat → String} {made : Nat} {disk : Disk.Tree}
    (hoffice : c.premises.office = ⟨request.here, request.environment, keyName⟩)
    (hgoes : c.Goes (answer c.premises.office request.args) v 0 w)
    (hfits : c.Fits ⟨disk, request.stdin.data.toList, .empty, made⟩ v) :
    ∃ d, run keyName request made disk = (⟨w.output.toUTF8, "", some 0⟩, w.made, d.disk) ∧
      c.Fits d w := by
  obtain ⟨d, hrun, hd⟩ := hgoes _ hfits
  rw [hoffice] at hrun
  refine ⟨d, ?_, hd⟩
  simp only [run, hrun, hd.output, hd.made]
  rfl

/-- A run that fails. -/
theorem run_of_stops {request : Request} {keyName : Nat → String} {made : Nat} {disk : Disk.Tree}
    (hoffice : c.premises.office = ⟨request.here, request.environment, keyName⟩)
    (hstops : c.Stops (answer c.premises.office request.args) v)
    (hfits : c.Fits ⟨disk, request.stdin.data.toList, .empty, made⟩ v) :
    (run keyName request made disk).1.exit = some 1 := by
  obtain ⟨trouble, d, hrun, hexit⟩ := hstops _ hfits
  rw [hoffice] at hrun
  simp only [run, hrun, hexit]

end Answers

end Notary
end TrustTrial
