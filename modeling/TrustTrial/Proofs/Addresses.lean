import TrustTrial.Main
import TrustTrial.Proofs.Commands
import TrustTrial.Proofs.Letters
import TrustTrial.Proofs.Outset
import TrustTrial.Proofs.Trace

/-!
# TrustTrial.Proofs.Addresses

Which server a trial goes to, from the word of the operator to the arguments of the client.

The choice of the server is a matter of its trimmed lower case, so that blanks and ASCII case make
no difference to it, and a remote address that has been chosen chooses itself again. All that is
probed and all that is called in a run follows from this one choice (`server_settled`). The
arguments of a call tell the client what the runner meant, and only a command that begins with the
word of a flag would be misunderstood (`arguments_understood_iff`).
-/

namespace TrustTrial

open Text

/-! ## Arguments -/

namespace Notary

namespace Flags

theorem length_take_le (f : Flags) (args : List String) :
    (take f args).2.length ≤ args.length := by
  fun_induction take f args <;> simp only [List.length_cons, List.length_nil] at * <;> omega

/-- A flag in front is taken, with its value if it has one. -/
theorem length_take_lt (f : Flags) {w : String} (hw : w ∈ ["-s", "-c", "-d", "-D"])
    (rest : List String) : (take f (w :: rest)).2.length < (w :: rest).length := by
  simp only [List.mem_cons, List.not_mem_nil, or_false] at hw
  cases rest with
  | nil => rcases hw with rfl | rfl | rfl | rfl <;> simp [take]
  | cons b rest =>
    have hrest : ∀ g, (take g rest).2.length ≤ rest.length := fun g => length_take_le g rest
    have hboth : ∀ g, (take g (b :: rest)).2.length ≤ rest.length + 1 :=
      fun g => length_take_le g (b :: rest)
    rcases hw with rfl | rfl | rfl | rfl
    · exact Nat.lt_succ_of_le (Nat.le_succ_of_le (hrest _))
    · exact Nat.lt_succ_of_le (Nat.le_succ_of_le (hrest _))
    · exact Nat.lt_succ_of_le (Nat.le_succ_of_le (hrest _))
    · exact Nat.lt_succ_of_le (hboth _)

/-- Nothing is taken exactly if there is no flag in front. -/
theorem take_eq_iff (f : Flags) (words : List String) :
    take f words = (f, words) ↔ ∀ w ∈ words.head?, w ∉ ["-s", "-c", "-d", "-D"] := by
  refine ⟨fun h w hw hflag => ?_, take_command f⟩
  cases words with
  | nil => cases hw
  | cons v rest =>
    cases hw
    have hlt := length_take_lt f hflag rest
    rw [h] at hlt
    exact Nat.lt_irrefl _ hlt

end Flags

/-- The client understands the arguments of a call: it finds the server that the runner was told to
use, the trust directory, and the command as its own words. This holds for all values of the flags,
be they flags themselves, and for all commands but those that begin with the word of a flag. -/
theorem arguments_understood_iff (r : Runner) (i : Invocation) :
    Flags.read (r.arguments i) =
        (match r.server with
          | .remote url =>
            { server := some url, embedded := false, config := none, trustDir := some i.trustDir }
          | .embedded =>
            { server := none
              embedded := true
              config := some r.localConfig
              trustDir := some i.trustDir }, i.args) ↔
      ∀ w ∈ i.args.head?, w ∉ ["-s", "-c", "-d", "-D"] := by
  have hflags : r.flags i.trustDir =
      match r.server with
      | .remote url => ⟨some url, false, none, some i.trustDir⟩
      | .embedded => ⟨none, true, some r.localConfig, some i.trustDir⟩ := rfl
  rw [read_arguments_eq, hflags]
  exact Flags.take_eq_iff _ _

/-- A runner whose server is named like a flag. -/
def dashRunner : Runner := ⟨"notary", .remote "-d", "-D", ⟨"", "", "", ""⟩, none, false⟩

theorem arguments_understood_dash :
    Flags.read ["-s", "-d", "-d", "-c", "list", "-s", "-D"] =
      ({ server := some "-d", embedded := false, config := none, trustDir := some "-c" },
        ["list", "-s", "-D"]) := by
  have hfirst : ∀ w ∈ ["list", "-s", "-D"].head?, w ∉ ["-s", "-c", "-d", "-D"] := by decide
  exact (arguments_understood_iff dashRunner (.new "-c" ["list", "-s", "-D"])).2 hfirst

end Notary

/-! ## The choice -/

namespace ServerChoice

variable {server other usual usual' url : String}

theorem ofText_congr (h : Alike server other) (h' : Alike usual usual') :
    ofText (some server) usual = ofText (some other) usual' := by
  simp only [ofText, h.lowercase_trim, h'.lowercase_trim]

theorem ofText_eq_remote : ofText (some server) usual = .remote url ↔
    url = lowercase (trim server) ∧ url ≠ "" ∧ url ≠ lowercase (trim usual) := by
  simp only [ofText, String.isEmpty_iff]
  generalize lowercase (trim server) = lowered
  generalize lowercase (trim usual) = sentinel
  split
  · rename_i hembedded
    simp only [reduceCtorEq, false_iff]
    rintro ⟨rfl, hne, hother⟩
    exact hembedded.elim hne hother
  · rename_i hremote
    rw [not_or] at hremote
    rw [remote.injEq, eq_comm]
    exact ⟨fun h => ⟨h, h ▸ hremote⟩, And.left⟩

/-- An address that is chosen needs no trimming, and chooses itself. -/
theorem ofText_self (h : ofText (some server) usual = .remote url) :
    Unpadded url.toList ∧ ofText (some url) usual = .remote url := by
  obtain ⟨rfl, hne, hother⟩ := ofText_eq_remote.1 h
  have hunpadded : Unpadded (lowercase (trim server)).toList := by
    rw [lowercase, trim, String.toList_ofList, String.toList_ofList]
    exact (unpadded_trimChars _).lowercaseFrom []
  have htrim : trim (lowercase (trim server)) = lowercase (trim server) := by
    rw [trim, hunpadded.trimChars, String.ofList_toList]
  refine ⟨hunpadded, ofText_eq_remote.2 ⟨?_, hne, hother⟩⟩
  rw [htrim, lowercase_lowercase]

end ServerChoice

/-! ## What is probed -/

namespace Readiness

/-- An address is what is left of it without the slashes at its end, and these. -/
theorem dropSlashes_eq (url : String) :
    ∃ n, url = dropSlashes url ++ String.ofList (List.replicate n '/') := by
  let slashes := url.toList.reverse.takeWhile (· = '/')
  have hslashes : slashes.reverse = List.replicate slashes.length '/' := by
    rw [← List.length_reverse]
    refine List.eq_replicate_of_mem fun c hc => ?_
    exact of_decide_eq_true (of_mem_takeWhile (List.mem_reverse.1 hc))
  refine ⟨slashes.length, String.toList_injective ?_⟩
  rw [String.toList_append, dropSlashes, String.toList_ofList, String.toList_ofList, ← hslashes,
    ← List.reverse_append, List.takeWhile_append_dropWhile, List.reverse_reverse]

theorem getLast?_dropSlashes (url : String) : (dropSlashes url).toList.getLast? ≠ some '/' := by
  intro h
  rw [dropSlashes, String.toList_ofList, List.getLast?_reverse] at h
  exact of_decide_eq_false (not_of_head?_dropWhile h) rfl

theorem asked_course {settings : ReadinessSettings} {server : ServerChoice} {health : Health}
    {c : Course} (h : course settings server health = some c) :
    ∀ probe ∈ c.asked, probe.2 = target settings server := by
  obtain ⟨report, -, rfl⟩ := Option.map_eq_some_iff.1 h
  intro probe hprobe
  obtain ⟨time, -, rfl⟩ := List.mem_map.1 hprobe
  rfl

end Readiness

/-! ## What is called -/

namespace Trial

variable {σ : Type} {m : Machine σ} {r : Runner} {s t u : Session σ}

/-- From one session to another the client has been called by a runner only. -/
def CalledBy (m : Machine σ) (r : Runner) (s t : Session σ) : Prop :=
  ∃ done, calls t.journal = calls s.journal ++ done ∧
    ∀ call ∈ done, ∃ i, call.1 = r.request m i

theorem CalledBy.of_journal (h : t.journal = s.journal) : CalledBy m r s t :=
  ⟨[], by rw [h, List.append_nil], nofun⟩

theorem CalledBy.trans (h : CalledBy m r s t) (h' : CalledBy m r t u) : CalledBy m r s u := by
  obtain ⟨before, hbefore, hcalls⟩ := h
  obtain ⟨after, hafter, hcalls'⟩ := h'
  refine ⟨before ++ after, ?_, List.forall_mem_append.2 ⟨hcalls, hcalls'⟩⟩
  rw [hafter, hbefore, List.append_assoc]

theorem calledBy_runScenario (m : Machine σ) (site : Site) (history : RootHistory)
    (scenario : Scenario) (s : Session σ) :
    CalledBy m site.runner s (run (runScenario m site history scenario) s).2 := by
  obtain ⟨done, hcalls, hupshot, -⟩ := runScenario_upshot m site history scenario s
  refine ⟨done, hcalls, fun call hcall => ?_⟩
  obtain ⟨i, -, hi⟩ := List.mem_map.1 (hupshot.isPrefix.subset (List.mem_map_of_mem hcall))
  exact ⟨i, hi.symm⟩

theorem calledBy_runEach (m : Machine σ) (site : Site) (history : RootHistory)
    (passed scenarios : List Scenario) (s : Session σ) :
    CalledBy m site.runner s (run (runEach m site history passed scenarios) s).2 := by
  induction scenarios generalizing history passed s with
  | nil => exact .of_journal (by rw [run_runEach_nil])
  | cons scenario scenarios ih =>
    have hfirst := calledBy_runScenario m site history scenario s
    rw [run_runEach_cons]
    rcases hrun : run (runScenario m site history scenario) s with ⟨failure | history, t⟩
    all_goals rw [hrun] at hfirst
    · exact hfirst
    · exact hfirst.trans (ih history _ t)

theorem journal_primary (m : Machine σ) (s : Session σ) :
    (run (TrustDir.primary m) s).2.journal = s.journal := by
  simp only [TrustDir.primary, run_create, String.reduceAppend]
  cases hcreate : s.disk.create m.here (entryPath m "_main" s.temps) .directory with
  | error fault => rw [run_makeTemp_of_error hcreate]
  | ok disk => rw [run_makeTemp_of_ok hcreate]

theorem calledBy_runAll (m : Machine σ) (r : Runner) (repo : String) (scenarios : List Scenario)
    (s : Session σ) : CalledBy m r s (run (runAll m r repo scenarios) s).2 := by
  have hprimary := journal_primary m s
  rw [run_runAll]
  rcases hrun : run (TrustDir.primary m) s with ⟨failure | primary, t⟩
  all_goals rw [hrun] at hprimary
  · exact .of_journal hprimary
  · have heach := calledBy_runEach m ⟨r, repo, primary⟩ .empty [] scenarios t
    have hremoved := (sameTalk_remove m primary
      (run (runEach m ⟨r, repo, primary⟩ .empty [] scenarios) t).2).journal
    have hcalled := ((CalledBy.of_journal hprimary).trans heach).trans (.of_journal hremoved)
    dsimp only
    split <;> exact hcalled

end Trial

namespace Program

open Trial

variable {σ : Type} {m : Machine σ} {a : Arguments} {s : Session σ} {settings : Settings}

theorem create_eq_ok {disk : Disk.Tree} {client : ClientSettings} {server : ServerChoice}
    {passphrases : Passphrases} {r : Runner}
    (h : Runner.create m disk client server passphrases = .ok r) :
    r.server = server ∧ r.localConfig = client.localConfig := by
  rw [Runner.create] at h
  split at h
  · cases h
  · cases h
    exact ⟨rfl, rfl⟩

theorem withLogin_eq_ok {r logged : Runner} {username : Option String}
    (h : withLogin m r username = .ok logged) :
    logged.server = r.server ∧ logged.localConfig = r.localConfig := by
  rw [withLogin] at h
  split at h
  · cases h
    exact ⟨rfl, rfl⟩
  · split at h
    · cases h
    · split at h
      · cases h
      · cases h
        exact ⟨rfl, rfl⟩

/-- The plan of a run has the settings that were read and the server that is told. -/
theorem plan_eq_ok {p : Plan} (hsettings : Configured m a s.disk settings)
    (h : plan m s.disk a = .ok p) :
    p.settings = settings ∧
      p.runner.server = .ofText a.server settings.readiness.defaultServer ∧
      p.runner.localConfig = settings.client.localConfig := by
  simp only [plan, hsettings.resolve] at h
  split at h
  · cases h
  · split at h
    · cases h
    · rename_i created hcreated
      split at h
      · cases h
      · rename_i logged hlogged
        cases h
        obtain ⟨hserver, hconfig⟩ := create_eq_ok hcreated
        obtain ⟨hserver', hconfig'⟩ := withLogin_eq_ok hlogged
        exact ⟨rfl, hserver'.trans hserver, hconfig'.trans hconfig⟩

/-- The wait of a run is the course for the server that is told. -/
theorem awaitServer_eq_course {p : Plan} (hsettings : Configured m a s.disk settings)
    (h : plan m s.disk a = .ok p) (hwaits : a.skipWait = false) {c : Readiness.Course}
    (hcourse : Readiness.course settings.readiness
      (.ofText a.server settings.readiness.defaultServer) m.health = some c) :
    awaitServer m a p = c.result := by
  obtain ⟨rfl, hserver, -⟩ := plan_eq_ok hsettings h
  simp only [awaitServer, hwaits, Bool.false_eq_true, if_false, Readiness.wait_enough, hserver,
    hcourse]

theorem calledBy_run {p : Plan} (h : plan m s.disk a = .ok p) :
    CalledBy m p.runner s (Trial.run (run m a) s).2 := by
  cases hawait : awaitServer m a p with
  | error failure =>
    rw [run_of_await_error h hawait]
    exact .of_journal rfl
  | ok _ =>
    have hall := calledBy_runAll m p.runner p.repo p.scenarios s
    rw [run_of_ready h hawait]
    rcases hrun : Trial.run (runAll m p.runner p.repo p.scenarios) s with ⟨failure | passed, t⟩
    all_goals rw [hrun] at hall
    · exact hall
    · exact hall.trans (.of_journal rfl)

/-- How a server is spoken of: the address that is probed, and the flags of every call. -/
inductive Spoken (settings : Settings) : ServerChoice → String → List String → Prop where
  | remote (url : String) : Spoken settings (.remote url) url ["-s", url]
  | embedded {base : String} {n : Nat} :
      settings.readiness.defaultServer = base ++ String.ofList (List.replicate n '/') →
      base.toList.getLast? ≠ some '/' →
      Spoken settings .embedded (base ++ settings.readiness.healthPath)
        ["-D", "-c", settings.client.localConfig]

theorem exists_spoken (settings : Settings) (server : ServerChoice) :
    ∃ front, Spoken settings server (Readiness.target settings.readiness server) front ∧
      ∀ r : Runner, r.server = server → r.localConfig = settings.client.localConfig →
        r.serverFlags = front := by
  cases server with
  | remote url =>
    refine ⟨_, .remote url, fun r hserver _ => ?_⟩
    rw [Runner.serverFlags, hserver]
  | embedded =>
    obtain ⟨n, hn⟩ := Readiness.dropSlashes_eq settings.readiness.defaultServer
    refine ⟨_, .embedded hn (Readiness.getLast?_dropSlashes _), fun r hserver hconfig => ?_⟩
    rw [Runner.serverFlags, hserver, hconfig]

/-- One choice of the server is all that a run goes by.

Blanks at the ends of the text that is given, or of the usual server, make no difference to the
choice, nor does the case of ASCII letters. A remote address is not empty, has no blanks at its
ends, and as a text chooses itself. The address that is probed and the flags of every call of the
client are those of the chosen server, whatever comes of the run: a run that waits asks that address
and nothing else, and goes on only if the wait succeeds. -/
theorem server_settled (m : Machine σ) (a : Arguments) (s : Session σ) :
    (∀ server other usual usual', Alike server other → Alike usual usual' →
      ServerChoice.ofText (some server) usual = ServerChoice.ofText (some other) usual') ∧
    (∀ server usual url, ServerChoice.ofText (some server) usual = .remote url →
      url ≠ "" ∧ Unpadded url.toList ∧ ServerChoice.ofText (some url) usual = .remote url) ∧
    ∀ settings, Configured m a s.disk settings →
      let chosen := ServerChoice.ofText a.server settings.readiness.defaultServer
      ∃ address front, Spoken settings chosen address front ∧
        Readiness.target settings.readiness chosen = address ∧
        (∀ c, Readiness.course settings.readiness chosen m.health = some c →
          (∀ probe ∈ c.asked, probe.2 = address) ∧
          (a.skipWait = false → ∀ p, plan m s.disk a = .ok p → awaitServer m a p = c.result ∧
            ∀ failure, c.result = .error failure →
              Trial.run (run m a) s = (.error failure, s))) ∧
        ∃ done, calls (Trial.run (run m a) s).2.journal = calls s.journal ++ done ∧
          ∀ call ∈ done, ∃ dir words, call.1.args = front ++ "-d" :: dir :: words := by
  refine ⟨fun _ _ _ _ => ServerChoice.ofText_congr, fun server usual url h => ?_,
    fun settings hsettings => ?_⟩
  · exact ⟨(ServerChoice.ofText_eq_remote.1 h).2.1, ServerChoice.ofText_self h⟩
  · intro chosen
    obtain ⟨front, hspoken, hfront⟩ := exists_spoken settings chosen
    refine ⟨_, front, hspoken, rfl, fun c hcourse => ⟨Readiness.asked_course hcourse, ?_⟩, ?_⟩
    · intro hwaits p hplan
      have hawait := awaitServer_eq_course hsettings hplan hwaits hcourse
      exact ⟨hawait, fun failure hresult =>
        run_of_await_error hplan (hawait.trans hresult)⟩
    cases hplan : plan m s.disk a with
    | error failure =>
      rw [run_of_plan_error hplan]
      exact ⟨[], (List.append_nil _).symm, nofun⟩
    | ok p =>
      obtain ⟨-, hserver, hconfig⟩ := plan_eq_ok hsettings hplan
      obtain ⟨done, hdone, hcalls⟩ := calledBy_run hplan
      refine ⟨done, hdone, fun call hcall => ?_⟩
      obtain ⟨i, hi⟩ := hcalls call hcall
      refine ⟨i.trustDir, i.args, ?_⟩
      rw [hi, Runner.request, Runner.arguments, hfront p.runner hserver hconfig, List.append_assoc]
      rfl

/-- A trial of the basic scenario against a server that is told in capital letters, with blanks
around it. -/
def shouted : Arguments where
  reponame := none
  server := some " FILE:///Server\t"
  username := none
  config := none
  binary := none
  timeout := none
  scenarios := ["basic_repo_test"]
  skipWait := true
  verbose := false
  logFile := none

/-- A client that does nothing and says so. -/
def idle : Client Unit := ⟨fun _ c disk => (⟨.empty, "", some 0⟩, c, disk)⟩

theorem server_settled_shouted :
    ServerChoice.ofText (some "file:///server") "HTTP://server:4443 " = .remote "file:///server" ∧
      Readiness.target .default (.ofText shouted.server "http://server:4443") = "file:///server" ∧
      ∃ done, done.length = 5 ∧
        calls (Trial.run (run ((Main.machine "sample").withClient idle) shouted)
          (.start Main.disk ())).2.journal = done ∧
        ∀ call ∈ done, ∃ dir words,
          call.1.args = "-s" :: "file:///server" :: "-d" :: dir :: words := by
  have hchosen : ServerChoice.ofText (some " FILE:///Server\t") "http://server:4443" =
      .remote "file:///server" := by decide +kernel
  have hlength : (calls (Trial.run (run ((Main.machine "sample").withClient idle) shouted)
      (.start Main.disk ())).2.journal).length = 5 := by decide +kernel
  have hconfigured : Configured ((Main.machine "sample").withClient idle) shouted Main.disk
      Settings.default := .default rfl
  obtain ⟨hsame, hself, hrun⟩ :=
    server_settled ((Main.machine "sample").withClient idle) shouted (.start Main.disk ())
  constructor
  · -- The address chooses itself, also against another spelling of the usual server.
    have haddress : Alike "file:///server" "file:///server" := .recased rfl
    have husual : Alike "http://server:4443" "HTTP://server:4443" := .recased (by decide)
    have hpadded : Alike ("" ++ "HTTP://server:4443" ++ " ") "HTTP://server:4443" :=
      .padded _ (by simp) (by simp [isBlank_space])
    rw [← (hself _ _ _ hchosen).2.2]
    exact (hsame _ _ _ _ haddress (husual.trans hpadded.symm)).symm
  · obtain ⟨address, front, hspoken, htarget, -, done, hdone, hcalls⟩ := hrun _ hconfigured
    have hchosen' : ServerChoice.ofText shouted.server Settings.default.readiness.defaultServer =
        .remote "file:///server" := hchosen
    rw [hchosen'] at hspoken htarget
    cases hspoken
    refine ⟨?_, done, ?_, hdone, hcalls⟩
    · rw [← htarget]
      exact congrArg _ hchosen'
    · rw [← hlength, hdone]
      rfl

end Program

end TrustTrial
