import TrustTrial.Main
import TrustTrial.Proofs.Dicts
import TrustTrial.Proofs.Runs

/-!
# TrustTrial.Proofs.Trace

The calls of a whole trial. Whatever the client does, they are a beginning of one script that the
scenarios and the repository fix in advance, so the traces of two clients differ only in length. A
call that ends without success is the last one and decides the result, whatever the clean-up does
after it.

The script names temporary entries through `primaryOf` and `standOf` only: another naming renames
the script and nothing else.
-/

namespace TrustTrial

/-- The words of the command of a request, after the flags that every call has. -/
def Runner.words (r : Runner) (q : Request) : List String :=
  q.args.drop (r.serverFlags.length + 2)

/-- What the client was asked, in order. -/
def requests (journal : List Event) : List Request := (calls journal).map Prod.fst

/-- The same surroundings with another client. -/
def Machine.withClient {σ τ : Type} (m : Machine σ) (client : Client τ) : Machine τ :=
  { m with client := client }

namespace Trial

variable {σ τ α : Type}

@[simp] theorem words_request (m : Machine σ) (r : Runner) (i : Invocation) :
    r.words (r.request m i) = i.args := by
  simp [Runner.words, Runner.request, Runner.arguments, List.drop_append]

/-! ## The script -/

theorem length_scriptFrom (repo : String) (primary : TrustDir) (stands : Nat → Stand) (k : Nat)
    (scenarios : List Scenario) :
    (scriptFrom repo primary stands k scenarios).length =
      6 * scenarios.count .basicRepo + 11 * scenarios.count .rootRotation +
        9 * scenarios.count .rootRerotation := by
  induction scenarios generalizing k with
  | nil => rfl
  | cons scenario scenarios ih =>
    rw [scriptFrom, List.length_append, ih]
    cases scenario
    all_goals
      simp only [Scenario.script, rotationScript, List.length_append, List.length_cons,
        List.length_nil, List.count_cons, beq_iff_eq, reduceCtorEq, if_true, if_false]
      omega

/-- What an invocation of a trial says on its input, told from its words. -/
structure Prompted (repo : String) (i : Invocation) : Prop where
  payload : i.payload =
    if i.args = ["key", "rotate", repo, "root"] then some rotationConfirmation else none
  offline : i.offline = decide (i.args.head? = some "verify")

@[simp] theorem prompted_invocation (repo : String) (d : TrustDir) (args : List String) :
    Prompted repo (d.invocation args) ↔
      args ≠ ["key", "rotate", repo, "root"] ∧ args.head? ≠ some "verify" := by
  constructor
  · intro h
    refine ⟨fun hroot => ?_, fun hverify => ?_⟩
    · exact nomatch h.payload.trans (if_pos hroot)
    · exact nomatch h.offline.trans (decide_eq_true hverify)
  · rintro ⟨hroot, hverify⟩
    exact ⟨(if_neg hroot).symm, (decide_eq_false hverify).symm⟩

@[simp] theorem prompted_rotation (repo : String) (d : TrustDir) :
    Prompted repo
      ((d.invocation ["key", "rotate", repo, "root"]).withPayload rotationConfirmation) :=
  ⟨(if_pos rfl).symm, rfl⟩

@[simp] theorem prompted_verification (repo : String) (d : TrustDir) (name file : String) :
    Prompted repo (d.invocation ["verify", repo, name, "-i", file, "-q"]).withoutCredentials :=
  ⟨(if_neg (by simp [Invocation.withoutCredentials, TrustDir.invocation, Invocation.new])).symm,
    rfl⟩

theorem prompted_script (repo : String) (primary : TrustDir) (stand : Stand)
    (scenario : Scenario) : ∀ i ∈ scenario.script repo primary stand, Prompted repo i := by
  cases scenario <;> simp [Scenario.script, rotationScript]

theorem prompted_scriptFrom (repo : String) (primary : TrustDir) (stands : Nat → Stand) (k : Nat)
    (scenarios : List Scenario) :
    ∀ i ∈ scriptFrom repo primary stands k scenarios, Prompted repo i := by
  induction scenarios generalizing k with
  | nil => simp [scriptFrom]
  | cons scenario scenarios ih =>
    rw [scriptFrom, List.forall_mem_append]
    exact ⟨prompted_script repo primary (stands k) scenario, ih (k + 1)⟩

/-! ## Runs along the script -/

variable (m : Machine σ) (site : Site)

/-- A scenario makes the calls of its script. -/
theorem runScenario_upshot (history : RootHistory) (scenario : Scenario) (s : Session σ) :
    ∃ done, calls (run (runScenario m site history scenario) s).2.journal =
        calls s.journal ++ done ∧
      Upshot ((scenario.script site.repo site.primary (standFrom m s.temps)).map
        (site.runner.request m)) (failure? (run (runScenario m site history scenario) s).1) done ∧
      (∀ c ∈ done, c.1.oversize m.argumentSpace = false) ∧
      ((∃ history', (run (runScenario m site history scenario) s).1 = .ok history') →
        (run (runScenario m site history scenario) s).2.temps = s.temps + 2) := by
  rw [run_runScenario]
  rcases hset : run (setUp m scenario) (opened m scenario s) with ⟨result, t⟩
  obtain ⟨-, hjournal, ⟨failure, rfl⟩ | ⟨rfl, htemps⟩⟩ := setUp_cases hset
  · refine ⟨[], ?_, .gaveUp List.nil_prefix (by simp), by simp, by simp⟩
    simp [hjournal, calls, Event.call?]
  simp only [opened_temps] at htemps
  obtain ⟨done, hcalls, hupshot, hfit, hkept⟩ :=
    (scripted_body m site (standFrom m s.temps) history scenario).upshot t
  have hstart : calls t.journal = calls s.journal := by simp [hjournal, calls, Event.call?]
  simp only [opened_temps]
  rcases hbody : run (body m site (standFrom m s.temps) history scenario) t with ⟨ended, u⟩
  rw [hbody] at hcalls hupshot hkept
  rw [hstart] at hcalls
  have htidy := sameTalk_cleanUp m (standFrom m s.temps) u
  rcases hclean : run (cleanUp m (standFrom m s.temps)) u with ⟨cleaned, v⟩
  rw [hclean] at htidy
  have hv : calls v.journal = calls s.journal ++ done := by rw [htidy.journal, hcalls]
  dsimp only
  cases ended with
  | error failure => exact ⟨done, hv, hupshot, hfit, by simp⟩
  | ok history' =>
    cases cleaned with
    | error failure => exact ⟨done, hv, hupshot.spoiled failure, hfit, by simp⟩
    | ok _ =>
      refine ⟨done, ?_, hupshot, hfit, fun _ => ?_⟩
      · rw [(sameTalk_passed m v).journal, hv]
      · rw [(sameTalk_passed m v).temps, htidy.temps, hkept, htemps]

/-- Scenarios make the calls of their scripts one after the other. -/
theorem runEach_upshot (history : RootHistory) (passed scenarios : List Scenario) (k : Nat)
    (s : Session σ) (hs : s.temps = 2 * k + 1) :
    ∃ done, calls (run (runEach m site history passed scenarios) s).2.journal =
        calls s.journal ++ done ∧
      Upshot ((scriptFrom site.repo site.primary (standOf m) k scenarios).map
        (site.runner.request m)) (failure? (run (runEach m site history passed scenarios) s).1)
        done ∧
      ∀ c ∈ done, c.1.oversize m.argumentSpace = false := by
  induction scenarios generalizing history passed k s with
  | nil => exact ⟨[], by simp [run_runEach_nil], .nil _, by simp⟩
  | cons scenario scenarios ih =>
    have hstand : standFrom m s.temps = standOf m k := by rw [hs]; rfl
    obtain ⟨done, hcalls, hupshot, hfit, htemps⟩ := runScenario_upshot m site history scenario s
    rw [hstand] at hupshot
    rw [run_runEach_cons, scriptFrom, List.map_append]
    rcases hrun : run (runScenario m site history scenario) s with ⟨result, t⟩
    rw [hrun] at hcalls hupshot htemps
    cases result with
    | error failure => exact ⟨done, by simpa using hcalls, hupshot.some_append, hfit⟩
    | ok history' =>
      have ht : t.temps = 2 * (k + 1) + 1 := by rw [htemps ⟨history', rfl⟩, hs]; omega
      obtain ⟨more, hcalls', hupshot', hfit'⟩ := ih history' (passed ++ [scenario]) (k + 1) t ht
      refine ⟨done ++ more, ?_, hupshot.none_append hupshot',
        List.forall_mem_append.2 ⟨hfit, hfit'⟩⟩
      rw [hcalls', hcalls, List.append_assoc]

/-- A whole trial makes the calls of its script, as far as they fit. -/
theorem runAll_upshot (r : Runner) (repo : String) (scenarios : List Scenario)
    (disk : Disk.Tree) (c : σ) :
    Upshot ((script m repo scenarios).map (r.request m))
        (failure? (run (runAll m r repo scenarios) (Session.start disk c)).1)
        (calls (run (runAll m r repo scenarios) (Session.start disk c)).2.journal) ∧
      ∀ call ∈ calls (run (runAll m r repo scenarios) (Session.start disk c)).2.journal,
        call.1.oversize m.argumentSpace = false := by
  rw [run_runAll]
  rcases hprimary : run (TrustDir.primary m) (Session.start disk c) with ⟨result, s⟩
  obtain ⟨-, hjournal, ⟨failure, rfl⟩ | ⟨rfl, htemps⟩⟩ := primary_cases hprimary
  · simp only [hjournal]
    exact ⟨.gaveUp List.nil_prefix (by simp [calls]), by simp [calls]⟩
  obtain ⟨done, hcalls, hupshot, hfit⟩ :=
    runEach_upshot m ⟨r, repo, primaryOf m⟩ .empty [] scenarios 0 s htemps
  rcases hrun : run (runEach m ⟨r, repo, primaryOf m⟩ .empty [] scenarios) s with ⟨ended, t⟩
  rw [hrun] at hcalls hupshot
  have htidy := sameTalk_remove m (primaryOf m) t
  rcases hclean : run ((primaryOf m).remove m) t with ⟨cleaned, u⟩
  rw [hclean] at htidy
  have hu : calls u.journal = done := by
    rw [htidy.journal, hcalls, hjournal]
    rfl
  simp only [hrun, hclean]
  cases ended with
  | error failure => exact hu ▸ ⟨hupshot, hfit⟩
  | ok _ =>
    cases cleaned with
    | error failure => exact hu ▸ ⟨hupshot.spoiled failure, hfit⟩
    | ok _ => exact hu ▸ ⟨hupshot, hfit⟩

/-- A trial that passes has made every call of its script, so all of them fit. -/
theorem runAll_fits {m : Machine σ} {r : Runner} {repo : String} {scenarios passed : List Scenario}
    {disk : Disk.Tree} {c : σ} {t : Session σ}
    (h : run (runAll m r repo scenarios) (Session.start disk c) = (.ok passed, t)) :
    ∀ i ∈ script m repo scenarios, r.Fits m i := by
  obtain ⟨hupshot, hfit⟩ := runAll_upshot m r repo scenarios disk c
  rw [h] at hupshot hfit
  cases hupshot with
  | finished hplan _ =>
    intro i hi
    have hmade : r.request m i ∈ (calls t.journal).map Prod.fst :=
      hplan ▸ List.mem_map_of_mem hi
    obtain ⟨call, hcall, he⟩ := List.mem_map.1 hmade
    rw [Runner.Fits, ← he]
    exact hfit call hcall

/-- A script fixes the calls of a trial up to where it stops. For a list of scenarios its length is
known, and no client can make a trial leave it, so the calls of any two clients agree as far as both
go. On its input a call gets the confirmation exactly if it rotates the root key, and the configured
credentials unless it verifies. A call that does not end with code 0 is the last one, and the trial
fails with its command line, exit code and output. -/
theorem runAll_follows_script {m : Machine σ} {r : Runner} {repo : String}
    {scenarios : List Scenario} {disk : Disk.Tree} {c : σ}
    {result : Except Failure (List Scenario)} {t : Session σ}
    (h : run (runAll m r repo scenarios) (Session.start disk c) = (result, t)) :
    (script m repo scenarios).length =
        6 * scenarios.count .basicRepo + 11 * scenarios.count .rootRotation +
          9 * scenarios.count .rootRerotation ∧
      requests t.journal <+: (script m repo scenarios).map (r.request m) ∧
      (∀ (τ : Type) (other : Client τ) (disk' : Disk.Tree) (c' : τ)
          (result' : Except Failure (List Scenario)) (t' : Session τ),
        run (runAll (m.withClient other) r repo scenarios) (Session.start disk' c') =
            (result', t') →
          requests t.journal <+: requests t'.journal ∨
            requests t'.journal <+: requests t.journal) ∧
      (∀ q ∈ requests t.journal, q.stdin = (Prompts.encode (Prompts.plan
        (if r.words q = ["key", "rotate", repo, "root"] then some "yes" else none)
        (if (r.words q).head? = some "verify" then none else r.credentials))).toUTF8) ∧
      ∀ call ∈ calls t.journal, call.2.exit ≠ some 0 →
        (∃ front, calls t.journal = front ++ [call]) ∧
          result = .error
            (.exited call.1.commandLine call.2.exit (Text.ofBytes call.2.stdout)) := by
  have hupshot := (runAll_upshot m r repo scenarios disk c).1
  rw [h] at hupshot
  refine ⟨?_, hupshot.isPrefix, ?_, ?_, ?_⟩
  · rw [script, length_scriptFrom]
  · intro τ other disk' c' result' t' h'
    -- The plan does not mention the client, so both traces are beginnings of one list.
    have hother := (runAll_upshot (m.withClient other) r repo scenarios disk' c').1
    rw [h'] at hother
    exact List.prefix_or_prefix_of_prefix hupshot.isPrefix hother.isPrefix
  · intro q hq
    obtain ⟨i, hi, rfl⟩ := List.mem_map.1 (hupshot.isPrefix.subset hq)
    have hprompt := prompted_scriptFrom repo (primaryOf m) (standOf m) 0 scenarios i hi
    simp only [words_request]
    simp only [Runner.request, Invocation.answers, hprompt.payload, hprompt.offline,
      decide_eq_true_eq, rotationConfirmation]
  · intro call hcall hexit
    obtain ⟨hlast, hfailure⟩ := hupshot.eq_exited hcall hexit
    refine ⟨hlast, ?_⟩
    cases result with
    | ok passed => exact nomatch hfailure
    | error failure => rw [Option.some.inj hfailure]

def sampleRunner : Runner :=
  ⟨"/bin/notary", .embedded, "/config.json", ⟨"root", "targets", "snapshot", "delegation"⟩, none,
    false⟩

/-- A client that says something and is then ended by a signal. -/
def killed : Client Unit := ⟨fun _ c disk => (⟨"oops".toUTF8, "", none⟩, c, disk)⟩

/-- A trial with that client. -/
def killedTrial : Except Failure (List Scenario) × Session Unit :=
  run (runAll ((Main.machine "sample").withClient killed) sampleRunner "sample"
    [.basicRepo, .rootRotation]) (Session.start Main.disk ())

theorem runAll_follows_script_killed :
    ∃ call, calls killedTrial.2.journal = [call] ∧ call.2.exit = none ∧
      killedTrial.1 = .error (.exited call.1.commandLine none (Text.ofBytes call.2.stdout)) := by
  have hexits : (calls killedTrial.2.journal).map (fun call => call.2.exit) = [none] := by
    decide +kernel
  rcases h : killedTrial with ⟨result, t⟩
  obtain ⟨-, -, -, -, hstops⟩ := runAll_follows_script (by rw [← killedTrial, h])
  rw [h] at hexits
  obtain ⟨call, hcalls, hexit⟩ := List.map_eq_singleton_iff.1 hexits
  have hend := (hstops call (by simp [hcalls]) (by simp [hexit])).2
  exact ⟨call, hcalls, hexit, hexit ▸ hend⟩

/-! ## Passphrases that are too long -/

/-- A root passphrase that leaves no room for the byte that ends its variable. -/
theorem not_fits_of_root {m : Machine σ} {r : Runner} {i : Invocation} (hplain : i.assignments = [])
    (hroot : 131048 < r.passphrases.root.utf8ByteSize) : ¬r.Fits m i := by
  have hassigned : ("NOTARY_ROOT_PASSPHRASE", r.passphrases.root) ∈
      (r.request m i).environment.toList := by
    refine Dict.mem_toList.2 ?_
    simp [Runner.request, Runner.environment, hplain, Passphrases.assignments, Dict.get?_insert]
  have hword : "NOTARY_ROOT_PASSPHRASE".utf8ByteSize + r.passphrases.root.utf8ByteSize + 2 ∈
      (r.request m i).wordSizes :=
    List.mem_append_right _ (List.mem_map_of_mem hassigned)
  have hname : "NOTARY_ROOT_PASSPHRASE".utf8ByteSize = 22 := by decide +kernel
  rw [Runner.Fits, Bool.not_eq_false, Request.oversize, Bool.or_eq_true]
  refine .inl (List.any_eq_true.2 ⟨_, hword, decide_eq_true ?_⟩)
  rw [Request.wordLimit, hname]
  omega

/-- With such a passphrase a trial fails, at its first call at the latest. -/
theorem failure_of_root {m : Machine σ} {r : Runner} {repo : String} {scenario : Scenario}
    {scenarios : List Scenario} {disk : Disk.Tree} {c : σ}
    (hroot : 131048 < r.passphrases.root.utf8ByteSize) :
    failure? (run (runAll m r repo (scenario :: scenarios)) (Session.start disk c)).1 ≠ none := by
  intro hpasses
  rcases h : run (runAll m r repo (scenario :: scenarios)) (Session.start disk c) with
    ⟨failure | passed, t⟩
  all_goals rw [h] at hpasses
  · cases hpasses
  · have hfits := runAll_fits h
    cases scenario
    all_goals exact not_fits_of_root rfl hroot (hfits _ List.mem_cons_self)

/-- A passphrase of some length. -/
def passphrase (n : Nat) : String := .ofList (List.replicate n 'x')

theorem utf8ByteSize_passphrase (n : Nat) : (passphrase n).utf8ByteSize = n := by
  have hbytes := String.toByteArray_ofList (l := List.replicate n 'x')
  have hx : 'x'.utf8Size = 1 := by decide
  rw [passphrase, ← String.size_toByteArray, hbytes, List.utf8Encode]
  simp [hx]

theorem hasNul_passphrase (n : Nat) : Disk.Path.hasNul (passphrase n) = false := by
  rw [Disk.Path.hasNul, passphrase, String.toList_ofList, ← Bool.not_eq_true, List.contains_iff_mem,
    List.mem_replicate]
  rintro ⟨-, he⟩
  exact absurd he (by decide)

end Trial
end TrustTrial
