import TrustTrial.Proofs.Commands
import TrustTrial.Proofs.Dicts
import TrustTrial.Proofs.Entries

/-!
# TrustTrial.Proofs.Fixtures

A trial of the notary: the machine's client is the notary, and the server is a directory that knows
nothing of the repository yet. `Fixture.Sound` lists what has to be in place for that. From it
follows that every call of the trial can be started, and that whoever calls is a `Visit` that the
notary can serve.
-/

namespace TrustTrial

open Disk Notary Text Trial

/-- A trial of the notary. `shelf` is the place of the server directory, `temp` that of the
directory for temporary files, `login` what the server wants, `ground` the tree at the start, and
`count` the number of temporary entries there is room for. -/
structure Fixture where
  machine : Machine Nat
  runner : Runner
  repo : String
  keyName : Nat → String
  server : String
  shelf : Location
  temp : Location
  login : Option Login
  ground : Tree
  count : Nat

namespace Fixture

variable (F : Fixture)

def office : Office :=
  ⟨F.machine.here, F.runner.environment (.new "" []) F.machine.environment, F.keyName⟩

def premises : Premises := ⟨F.office, F.server, F.shelf, F.repo, F.login, F.ground⟩

/-- The owner of a temporary entry as a client of the server. -/
def visit (n : Nat) (base : Tree) : Visit :=
  ⟨F.premises, entry F.machine n, entryPlace F.machine F.temp n, base⟩

/-- The server directory is there, and nothing in it is about the repository. If it wants a login,
the configured credentials are right for it. -/
structure Served : Prop where
  located : F.ground.locate F.machine.here F.server = .ok F.shelf
  directory : F.ground.find? F.shelf = some .directory
  unused : F.ground.find? F.premises.recordPlace = none
  fresh : F.ground.find? (F.shelf ++ ["stale_suffix"]) = none
  unlocked : F.login = none → F.ground.find? (F.shelf ++ ["login.json"]) = none
  login : ∀ l ∈ F.login, F.runner.credentials = some ⟨l.username, l.password⟩ ∧
    Typed l.username ∧ Typed l.password ∧
    ∃ text, F.ground.readText F.machine.here (loginPath F.server) = .ok text ∧
      readAs Login.shape Login.ofValue? text = .ok l
  chosen : Serves F.runner F.premises

/-- The repository has a name whose segments and whose record can stand in a directory. -/
structure Named : Prop where
  letters : ∀ c ∈ F.repo.toList, c ≠ '\n' ∧ c ≠ '\x00'
  segments : ∀ part ∈ Path.parts F.repo, Path.Plain part
  record_name : Path.Plain F.premises.recordName
  record_path : Tree.refuse? (recordPath F.server F.repo) = none
  not_login : F.repo ≠ "login"

/-- There is room for temporary entries, and the paths below them are short enough. -/
structure Roomy : Prop where
  room : Room F.machine F.count F.temp F.ground
  names : ∀ n < F.count, ∀ c ∈ (F.machine.tempName n).toList, c ≠ '.' ∧ c ≠ '\n'
  single : '\n' ∉ F.machine.tempDir.toList
  keys_path : ∀ n < F.count, n % 2 = 0 → Tree.refuse? (keysPath (entry F.machine n)) = none
  staged_path : ∀ n < F.count, n % 2 = 0 →
    Tree.refuse? (stagedPath (entry F.machine n) F.repo) = none
  root_path : ∀ n < F.count, n % 2 = 0 →
    Tree.refuse? (RootDocument.path (entry F.machine n) F.repo) = none

/-- The notary can be started, and the passphrases that it asks for are set. -/
structure Launched : Prop where
  client : F.machine.client = Notary.client F.keyName
  program : ∃ data, F.ground.look F.machine.here F.runner.binary = .ok (.file data true)
  inherited : ∀ v ∈ F.machine.environment.toList,
    Path.hasNul v.1 = false ∧ Path.hasNul v.2 = false
  nonempty : F.runner.passphrases.root ≠ "" ∧ F.runner.passphrases.targets ≠ "" ∧
    F.runner.passphrases.snapshot ≠ ""
  passable : ∀ v ∈ F.runner.passphrases.assignments, Path.hasNul v.2 = false

/-- All that a trial of the notary needs. Keys are told apart by ids that are single words. -/
structure Sound : Prop where
  served : F.Served
  named : F.Named
  roomy : F.Roomy
  launched : F.Launched
  distinct : Function.Injective F.keyName
  words : ∀ n, Wordy (F.keyName n)

end Fixture

/-! ## The server -/

namespace Fixture

variable {F : Fixture}

theorem Named.repo_ne (h : F.Named) : F.repo ≠ "" := ne_empty_of_parts h.segments

theorem Named.not_reserved (h : F.Named) : F.premises.recordName ≠ "login.json" := by
  intro he
  have hrepo : replaceSlashes F.repo = "login" := by
    apply String.toList_injective
    have hlists : (replaceSlashes F.repo).toList ++ ".json".toList =
        "login".toList ++ ".json".toList := by
      simpa [premises, Premises.recordName] using congrArg String.toList he
    exact List.append_cancel_right hlists
  have hslash : ∀ c ∈ F.repo.toList, c ≠ '/' := by
    rintro c hc rfl
    have hmem : '_' ∈ (replaceSlashes F.repo).toList := by
      simpa [replaceSlashes] using ⟨'/', hc, by simp⟩
    rw [hrepo] at hmem
    revert hmem
    decide
  refine h.not_login ?_
  rw [← hrepo]
  apply String.toList_injective
  rw [replaceSlashes, String.toList_ofList]
  refine (List.map_id _).symm.trans (List.map_congr_left fun c hc => ?_)
  exact (if_neg (hslash c hc)).symm

theorem Launched.passphrases (h : F.Launched) : ∀ name ∈ passphraseNames, ∃ value,
    F.office.environment.get? name = some value ∧ value ≠ "" := by
  obtain ⟨hroot, htargets, hsnapshot⟩ := h.nonempty
  intro name hname
  simp only [passphraseNames, List.mem_cons, List.not_mem_nil, or_false] at hname
  rcases hname with rfl | rfl | rfl
  · exact ⟨_, by simp [office, Runner.environment, Invocation.new, Passphrases.assignments,
      Dict.get?_insert], hroot⟩
  · exact ⟨_, by simp [office, Runner.environment, Invocation.new, Passphrases.assignments,
      Dict.get?_insert], htargets⟩
  · exact ⟨_, by simp [office, Runner.environment, Invocation.new, Passphrases.assignments,
      Dict.get?_insert], hsnapshot⟩

theorem Sound.premises (h : F.Sound) : F.premises.Sound where
  located := h.served.located
  directory := h.served.directory
  record_name := h.named.record_name
  record_path := h.named.record_path
  unused := h.served.unused
  segments := h.named.segments
  apart := h.named.not_reserved
  passphrases := h.launched.passphrases
  login := fun l hl => (h.served.login l hl).2

/-! ## The clients -/

theorem dot_notMem_entryEnding (n : Nat) : '.' ∉ (entryEnding n).toList := by
  rcases n with _ | n
  · decide
  · rw [entryEnding]
    split <;> decide

/-- The names of entries are unlike those in the server directory. -/
theorem Sound.name_apart (h : F.Sound) {n : Nat} (hn : n < F.count) :
    entryName F.machine n ∉ F.premises.reserved := by
  have hname : (entryName F.machine n).toList =
      '.' :: 't' :: 'm' :: 'p' :: ((F.machine.tempName n).toList ++ (entryEnding n).toList) := by
    simp [entryName]
  have htail : '.' ∉ (entryName F.machine n).toList.tail := by
    have htemp : '.' ∉ (F.machine.tempName n).toList :=
      fun hmem => (h.roomy.names n hn _ hmem).1 rfl
    rw [hname]
    simp [htemp, dot_notMem_entryEnding]
  have hrepo : (replaceSlashes F.repo).toList ≠ [] := by
    simpa [replaceSlashes] using h.named.repo_ne
  simp only [Premises.reserved, List.mem_cons, List.not_mem_nil, or_false, not_or]
  refine ⟨fun he => htail ?_, fun he => htail ?_, fun he => ?_⟩
  · obtain ⟨c, cs, hcs⟩ := List.exists_cons_of_ne_nil hrepo
    rw [he]
    have hrecord : F.premises.recordName.toList = c :: (cs ++ ".json".toList) := by
      rw [Premises.recordName, String.toList_append, show F.premises.repo = F.repo from rfl, hcs]
      rfl
    rw [hrecord]
    simp
  · rw [he]
    decide
  · have hhead := congrArg List.head? hname
    rw [he] at hhead
    exact absurd (show "stale_suffix".toList.head? = some '.' from hhead) (by decide)

theorem Sound.place_apart (h : F.Sound) {n : Nat} (hn : n < F.count) {name : String}
    (hname : name ∈ F.premises.reserved) :
    ¬entryPlace F.machine F.temp n <+: F.shelf ++ [name] := by
  rw [List.prefix_concat_iff]
  rintro (he | hbelow)
  · obtain ⟨-, he⟩ := List.append_inj' he rfl
    exact h.name_apart hn ((List.cons.inj he).1 ▸ hname)
  · exact h.roomy.room.not_prefix hn h.served.directory hbelow

/-- A tree on which only the record and temporary entries may be new. -/
theorem Sound.grounded (h : F.Sound) {t : Tree}
    (helsewhere : ∀ place, place ≠ F.premises.recordPlace →
      (∀ n < F.count, ¬entryPlace F.machine F.temp n <+: place) →
        t.find? place = F.ground.find? place) : F.premises.Grounded t := by
  have hreserved : ∀ name ∈ F.premises.reserved, name ≠ F.premises.recordName →
      t.find? (F.shelf ++ [name]) = F.ground.find? (F.shelf ++ [name]) := by
    intro name hname hne
    refine helsewhere _ ?_ fun n hn => h.place_apart hn hname
    simpa [Premises.recordPlace, Fixture.premises] using hne
  refine ⟨fun place node hnode => ?_, ?_, fun hlogin => ?_⟩
  · rw [helsewhere place ?_ ?_]
    · exact hnode
    · rintro rfl
      rw [show F.premises.ground = F.ground from rfl, h.served.unused] at hnode
      cases hnode
    · intro n hn hbelow
      rw [show F.premises.ground = F.ground from rfl, h.roomy.room.free n hn place hbelow] at hnode
      cases hnode
  · refine (hreserved _ (by simp [Premises.reserved]) ?_).trans h.served.fresh
    intro he
    have hend := congrArg (fun s => s.toList.getLast?) he
    simp [Premises.recordName] at hend
  · refine (hreserved _ (by simp [Premises.reserved]) ?_).trans (h.served.unlocked hlogin)
    exact h.named.not_reserved.symm

theorem Sound.visit (h : F.Sound) {n : Nat} (hn : n < F.count) (heven : n % 2 = 0) {base : Tree}
    (hbase : F.premises.Grounded base) : (F.visit n base).Sound where
  premises := h.premises
  located := h.roomy.room.locate_entry (fun _ hplace => hplace) hn
  open_end := by
    have hplain := h.roomy.room.plain n hn
    have hne : F.machine.tempDir ≠ "" :=
      Tree.ne_empty_of_refuse? (Tree.locate_eq_ok h.roomy.room.found).1
    obtain ⟨front, hjoin, -⟩ := Path.join_eq hne hplain.isAbsolute
    rw [Fixture.visit, entry, hjoin, Path.endsInSlash_append hplain.named, hplain.endsInSlash]
  free := h.roomy.room.free n hn
  apart := fun name hname he => h.place_apart hn hname (he ▸ List.prefix_rfl)
  keys_path := h.roomy.keys_path n hn heven
  staged_path := h.roomy.staged_path n hn heven
  root_path := h.roomy.root_path n hn heven
  grounded := hbase

theorem mem_join {c : Char} {base path : String} (h : c ∈ (Path.join base path).toList) :
    c ∈ base.toList ∨ c = '/' ∨ c ∈ path.toList := by
  simp only [Path.join] at h
  split at h
  · exact .inr (.inr h)
  · split at h
    · simp only [String.toList_append, List.mem_append] at h
      rcases h with h | h
      · exact .inl h
      · exact .inr (.inr h)
    · simpa [or_assoc] using h

theorem newline_notMem_privateDir {trustDir : String} (h : '\n' ∉ trustDir.toList) :
    '\n' ∉ (privateDir trustDir).toList := by
  intro hmem
  rcases mem_join hmem with hmem | hmem | hmem
  · exact h hmem
  · exact absurd hmem (by decide)
  · exact absurd hmem (by decide)

/-- The path of an identity is one line. -/
theorem Roomy.single_entry (h : F.Roomy) {n : Nat} (hn : n < F.count) :
    '\n' ∉ (entry F.machine n).toList := by
  intro hmem
  rcases mem_join hmem with hmem | hmem | hmem
  · exact h.single hmem
  · exact absurd hmem (by decide)
  · simp only [entryName, String.toList_append, List.mem_append] at hmem
    rcases hmem with (hmem | hmem) | hmem
    · exact absurd hmem (by decide)
    · exact (h.names n hn _ hmem).2 rfl
    · revert hmem
      rcases n with _ | n
      · decide
      · rw [entryEnding]
        split <;> decide

/-! ## Calls -/

theorem hasNul_of_refuse? {path : String} (h : Tree.refuse? path = none) :
    Path.hasNul path = false := by
  simp only [Tree.refuse?] at h
  split at h
  · cases h
  · rename_i hnul
    simpa using hnul

theorem hasNul_of_look {t : Tree} {here : Location} {path : String} {node : Node}
    (h : t.look here path = .ok node) : Path.hasNul path = false := by
  simp only [Tree.look] at h
  split at h
  · cases h
  · rename_i hlocate
    exact hasNul_of_refuse? (Tree.locate_eq_ok hlocate).1

theorem Served.hasNul_flags (h : F.Served) : ∀ w ∈ F.runner.serverFlags, Path.hasNul w = false := by
  have hchosen := h.chosen
  rw [Serves] at hchosen
  intro w hw
  rw [Runner.serverFlags] at hw
  cases hserver : F.runner.server with
  | remote url =>
    simp only [hserver, List.mem_cons, List.not_mem_nil, or_false] at hchosen hw
    rcases hw with rfl | rfl
    · decide
    · have hdir := hasNul_of_refuse? (Tree.locate_eq_ok h.located).1
      simp only [serverDir?] at hchosen
      split at hchosen
      · rename_i dir hurl
        have hserver : F.server.toList = dir := by
          rw [← show String.ofList dir = F.server from Option.some.inj hchosen,
            String.toList_ofList]
        simp only [Path.hasNul, hurl, hserver] at hdir ⊢
        simpa using hdir
      · cases hchosen
  | embedded =>
    simp only [hserver, List.mem_cons, List.not_mem_nil, or_false] at hchosen hw
    rcases hw with rfl | rfl | rfl
    · decide
    · decide
    · obtain ⟨text, -, htext, -⟩ := hchosen
      cases hlook : F.ground.look F.machine.here F.runner.localConfig with
      | ok node => exact hasNul_of_look hlook
      | error fault =>
        rw [show F.premises.ground = F.ground from rfl,
          show F.premises.office.here = F.machine.here from rfl, Tree.readText, Tree.readBytes,
          hlook] at htext
        cases htext

theorem Launched.hasNul_environment (h : F.Launched) :
    ∀ v ∈ F.office.environment.toList, Path.hasNul v.1 = false ∧ Path.hasNul v.2 = false := by
  intro v hv
  rcases Dict.mem_foldl_insert hv with hv | hv
  · have hassigned : v ∈ F.runner.passphrases.assignments := by
      simpa [Invocation.new] using hv
    have hnames : ∀ name ∈ F.runner.passphrases.assignments.map Prod.fst,
        Path.hasNul name = false := by
      simp only [Passphrases.assignments, List.map_cons, List.map_nil]
      decide
    exact ⟨hnames v.1 (List.mem_map_of_mem hassigned), h.passable v hassigned⟩
  · exact h.inherited v hv

/-- A call that the client can be told. -/
def Fits (F : Fixture) (i : Invocation) : Prop := F.runner.Fits F.machine i

instance (F : Fixture) (i : Invocation) : Decidable (F.Fits i) :=
  inferInstanceAs (Decidable (F.runner.Fits F.machine i))

/-- An invocation that is not too large and whose words can be passed on, and which changes no
variable. -/
structure Passes (F : Fixture) (i : Invocation) : Prop where
  plain : i.assignments = []
  words : ∀ w ∈ i.args, Path.hasNul w = false
  fits : F.Fits i

theorem Passes.environment {i : Invocation} (h : F.Passes i) :
    F.runner.environment i F.machine.environment = F.office.environment := by
  simp [office, Runner.environment, h.plain, Invocation.new]

theorem Sound.hasNul_arguments (h : F.Sound) {n : Nat} (hn : n < F.count) {i : Invocation}
    (hi : F.Passes i) (hdir : i.trustDir = entry F.machine n) :
    ∀ w ∈ F.runner.arguments i, Path.hasNul w = false := by
  intro w hw
  simp only [Runner.arguments, List.mem_append, List.mem_cons, List.not_mem_nil, or_false] at hw
  rcases hw with (hw | rfl | rfl) | hw
  · exact h.served.hasNul_flags w hw
  · decide
  · rw [hdir]
    exact hasNul_of_refuse? (h.roomy.room.fits n hn)
  · exact hi.words w hw

/-- A call of a client of the server can be started. -/
theorem Sound.starts (h : F.Sound) {n : Nat} (hn : n < F.count) {i : Invocation} (hi : F.Passes i)
    (hdir : i.trustDir = entry F.machine n) {t : Tree} (ht : F.premises.Grounded t) :
    captureFault F.machine t = none ∧
      (F.runner.request F.machine i).refused F.machine.argumentSpace t = none := by
  constructor
  · have hlook := Tree.look_of_locate (Tree.locate_mono ht.directories h.roomy.room.found)
    rw [ht.directories _ h.roomy.room.directory] at hlook
    rw [captureFault]
    simp only [hlook]
  · obtain ⟨data, hprogram⟩ := h.launched.program
    have hlook : t.look F.machine.here F.runner.binary = .ok (.file data true) :=
      look_kept ht.kept hprogram
    have hargs : (F.runner.arguments i).any Path.hasNul = false := by
      rw [List.any_eq_false]
      intro w hw
      simp [h.hasNul_arguments hn hi hdir w hw]
    have henvironment : F.office.environment.toList.any
        (fun v => Path.hasNul v.1 || Path.hasNul v.2) = false := by
      rw [List.any_eq_false]
      intro v hv
      simp [h.launched.hasNul_environment v hv]
    have hbarred : (F.runner.request F.machine i).barred t = none := by
      simp [Request.barred, Runner.request, hasNul_of_look hprogram, hargs, hi.environment,
        henvironment, hlook]
    have hfits : (F.runner.request F.machine i).oversize F.machine.argumentSpace = false := hi.fits
    simp only [Request.refused, hbarred, hfits, Bool.false_eq_true, if_false]

end Fixture
end TrustTrial
