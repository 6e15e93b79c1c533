import TrustTrial.Proofs.Trace

/-!
# TrustTrial.Proofs.Blame

Where a scenario that rotates the root key fails, and what its failure says about it. A failure is
either the scenario's own, a check that does not hold, or somebody else's: a call that cannot be
made or ends without success, or a root document that cannot be loaded. The first kind names a
stage, and which one depends on nothing but the number of calls so far (`stageAfter`); the second
comes out as it is (`Foreign`).

`Blames` counts the calls of a step and gives every check its stage, rule by rule. What a failure
can be then follows by induction on the rules (`Blames.upshot`).
-/

namespace TrustTrial

/-! ## Messages -/

/-- A check that is told neither in words nor as one of a stage. -/
def Violation.Plain : Violation → Prop
  | .stated _ => False
  | .during _ _ => False
  | _ => True

def Stage.heading (stage : Stage) : String := "[" ++ stage.name ++ "] "

/-- A text that begins with some other character than a bracket has no heading. -/
theorem not_heading_of_head {front : String}
    (hfront : front.toList.head?.any (fun c => c ≠ '[') = true) (rest : List Char)
    (stage : Stage) : ¬stage.heading.toList <+: front.toList ++ rest := by
  rintro ⟨more, hmore⟩
  have hhead := congrArg List.head? hmore
  rw [Stage.heading] at hhead
  cases hchars : front.toList with
  | nil => simp [hchars] at hfront
  | cons c chars =>
    simp [hchars] at hhead hfront
    exact hfront hhead.symm

theorem Violation.Plain.not_heading {v : Violation} (hv : v.Plain) (stage : Stage) :
    ¬stage.heading.toList <+: v.message.toList := by
  cases v with
  | stated text => exact hv.elim
  | during stage v => exact hv.elim
  | noRootRow =>
    unfold Violation.message
    rw [← List.append_nil (String.toList "no root key in key list")]
    exact not_heading_of_head (by decide) [] stage
  | _ =>
    unfold Violation.message
    simp only [String.toList_append, List.append_assoc]
    exact not_heading_of_head (by decide) _ stage

/-! ## Stages -/

/-- The call that rotates the root key. -/
def rotationCall (repo : String) (primary : TrustDir) : Invocation :=
  (primary.invocation ["key", "rotate", repo, "root"]).withPayload rotationConfirmation

/-- The stage whose checks are made after so many calls of a script: right before the rotation of
the root key, after the listing of keys that follows it, after the listing of targets that comes
then, and after the last call. -/
def stageAfter (script : List Invocation) (rotation : Invocation) (n : Nat) : Option Stage :=
  if script[n]? = some rotation then some .keysEnumerated
  else if 2 ≤ n ∧ script[n - 2]? = some rotation then some .metadataReloaded
  else if 3 ≤ n ∧ script[n - 3]? = some rotation then some .verified
  else if n = script.length then some .continuation
  else none

theorem stageAfter_mem {script : List Invocation} {rotation : Invocation} {n : Nat} {stage : Stage}
    (h : stageAfter script rotation n = some stage) :
    stage ∈ [.keysEnumerated, .metadataReloaded, .verified, .continuation] := by
  unfold stageAfter at h
  grind

namespace Trial

variable {σ α β : Type} {m : Machine σ} {r : Runner} {site : Site} {stand : Stand}

/-! ## Failures of others -/

/-- An invocation that fails could not be made, or its client ended without success. -/
theorem run_invoke_error {i : Invocation} {s t : Session σ} {failure : Failure}
    (h : run (invoke m r i) s = (.error failure, t)) :
    (Denied m (r.commandLine i) (r.request m i) t.disk failure ∧
        calls t.journal = calls s.journal) ∨
      ∃ reply, reply.exit ≠ some 0 ∧
        failure = .exited (r.commandLine i) reply.exit (Text.ofBytes reply.stdout) ∧
        calls t.journal = calls s.journal ++ [(r.request m i, reply)] := by
  have hi := invoked h
  generalize hresult : (Except.error failure : Except Failure String) = result at hi
  cases hi with
  | refused hdenied hdisk _ _ hjournal =>
    cases hresult
    exact .inl ⟨hdisk ▸ hdenied, congrArg calls hjournal⟩
  | @answered reply _ _ _ _ _ hjournal =>
    rw [Outcome.output] at hresult
    split at hresult
    · cases hresult
    · rename_i hexit
      cases hresult
      exact .inr ⟨reply, fun h => hexit (decide_eq_true h), rfl,
        by simp [hjournal, calls, Event.call?]⟩

/-! ## Steps with their places -/

/-- A failure that is not a check of the scenario: after `n` calls of a script, the next one cannot
be made, the last one ended without success, or the root document cannot be loaded. -/
inductive Foreign (m : Machine σ) (site : Site) (d : TrustDir) (script : List Invocation)
    (t : Session σ) (n : Nat) : Failure → Prop
  | denied {i : Invocation} {failure : Failure} :
      script[n]? = some i →
      Denied m (site.runner.commandLine i) (site.runner.request m i) t.disk failure →
      Foreign m site d script t n failure
  | exited {i : Invocation} {reply : Reply} :
      script[n - 1]? = some i →
      (calls t.journal).getLast? = some (site.runner.request m i, reply) → reply.exit ≠ some 0 →
      Foreign m site d script t n
        (.exited (site.runner.commandLine i) reply.exit (Text.ofBytes reply.stdout))
  | unloaded {failure : Failure} :
      RootDocument.load t.disk m.here d.path site.repo = .error failure →
      Foreign m site d script t n failure

/-- A failure after `n` calls of a script: a check of the stage that is due then, or a foreign
failure. -/
inductive Blamed (m : Machine σ) (site : Site) (d : TrustDir) (script : List Invocation)
    (due : Nat → Option Stage) (t : Session σ) (n : Nat) : Failure → Prop
  | check {stage : Stage} {v : Violation} :
      due n = some stage → v.Plain → Blamed m site d script due t n (.violated (.during stage v))
  | foreign {failure : Failure} :
      Foreign m site d script t n failure → Blamed m site d script due t n failure

/-- A result that can only be spoiled by a plain check. -/
def Plainly (result : Except Failure α) : Prop :=
  ∀ failure, result = .error failure → ∃ v : Violation, v.Plain ∧ failure = .violated v

/-- A step that is taken after `n` calls of a script and ends after `k` calls, and whose checks are
those of the stages that are due. -/
inductive Blames (m : Machine σ) (site : Site) (d : TrustDir) (script : List Invocation)
    (due : Nat → Option Stage) : {α : Type} → Nat → Nat → Trial σ α → Prop
  | smooth {α : Type} {n : Nat} {x : Trial σ α} :
      Quiet x → (∀ s, ∃ a t, run x s = (.ok a, t)) → Blames m site d script due n n x
  | call {n : Nat} {i : Invocation} :
      script[n]? = some i → Blames m site d script due n (n + 1) (invoke m site.runner i)
  | load {n : Nat} : Blames m site d script due n n (loadRoot m site d)
  | check {α : Type} {n : Nat} {stage : Stage} {result : Except Failure α} :
      due n = some stage → Plainly result → Blames m site d script due n n (inStage stage result)
  | refuse {α : Type} {n k : Nat} {stage : Stage} {v : Violation} :
      due n = some stage → v.Plain →
      Blames m site d script due n k (throw (.violated (.during stage v)) : Trial σ α)
  | bind {α β : Type} {n k l : Nat} {x : Trial σ α} {f : α → Trial σ β} :
      Blames m site d script due n k x → (∀ a, Blames m site d script due k l (f a)) →
      Blames m site d script due n l (x >>= f)

namespace Blames

variable {d : TrustDir} {script : List Invocation} {due : Nat → Option Stage}

/-- A run that passes has made its calls; one that fails is to be blamed on what comes after those
that it made. -/
theorem upshot {n k : Nat} {x : Trial σ α} (h : Blames m site d script due n k x) :
    ∀ s, ∃ done, calls (run x s).2.journal = calls s.journal ++ done ∧
      match (run x s).1 with
      | .ok _ => n + done.length = k
      | .error failure => Blamed m site d script due (run x s).2 (n + done.length) failure := by
  induction h with
  | smooth hquiet hpasses =>
    intro s
    obtain ⟨a, t, ht⟩ := hpasses s
    have hcalls := (hquiet s).calls
    rw [ht] at hcalls ⊢
    exact ⟨[], by simpa using hcalls, rfl⟩
  | @call n i hi =>
    intro s
    rcases hrun : run (invoke m site.runner i) s with ⟨failure | output, t⟩
    · rcases run_invoke_error hrun with ⟨hdenied, hcalls⟩ | ⟨reply, hexit, rfl, hcalls⟩
      · exact ⟨[], by simpa using hcalls, .foreign (.denied hi hdenied)⟩
      · exact ⟨_, hcalls, .foreign (.exited hi (by simp [hcalls]) hexit)⟩
    · obtain ⟨reply, -, -, -, -, hjournal⟩ := run_invoke_ok hrun
      exact ⟨[(site.runner.request m i, reply)], by simp [hjournal, calls, Event.call?], rfl⟩
  | load =>
    intro s
    refine ⟨[], by simpa using (quiet_loadRoot m site d s).calls, ?_⟩
    rw [loadRoot, run_bind, run_look]
    cases hload : RootDocument.load s.disk m.here d.path site.repo with
    | error failure => exact .foreign (.unloaded hload)
    | ok document => rfl
  | @check _ n stage result hstage hplain =>
    intro s
    refine ⟨[], by simp [inStage], ?_⟩
    cases result with
    | ok a => rfl
    | error failure =>
      obtain ⟨v, hv, rfl⟩ := hplain failure rfl
      exact .check hstage hv
  | refuse hstage hv => exact fun s => ⟨[], by simp, .check hstage hv⟩
  | @bind _ _ n k l x f _ _ ihx ihf =>
    intro s
    obtain ⟨before, hbefore, hx⟩ := ihx s
    rw [run_bind]
    rcases hrun : run x s with ⟨failure | a, t⟩
    · rw [hrun] at hbefore hx
      exact ⟨before, hbefore, hx⟩
    · rw [hrun] at hbefore hx
      obtain ⟨done, hdone, hf⟩ := ihf a t
      subst hx
      refine ⟨before ++ done, by rw [hdone, hbefore, List.append_assoc], ?_⟩
      rw [List.length_append, ← Nat.add_assoc]
      exact hf

end Blames

/-! ## Checks -/

theorem plainly_ok (a : α) : Plainly (.ok a) := fun _ h => nomatch h

theorem plainly_violated {v : Violation} (hv : v.Plain) :
    Plainly (.error (.violated v) : Except Failure α) := by
  rintro _ ⟨⟩
  exact ⟨v, hv, rfl⟩

theorem plainly_capture (document : RootDocument) : Plainly (RootState.capture document) := by
  rw [RootState.capture, RootDocument.singleRootKey]
  rcases document.trustedKeys rootRole with _ | ⟨key, _ | ⟨other, keys⟩⟩
  · exact plainly_violated trivial
  · exact plainly_ok _
  · exact plainly_violated trivial

theorem plainly_rotated (before : RootState) (document : RootDocument) (trusted : List String) :
    Plainly (RootState.rotated before document trusted) := by
  rw [RootState.rotated]
  split
  · exact plainly_violated trivial
  · split
    · rename_i failure hcapture
      obtain ⟨v, hv, rfl⟩ := plainly_capture document failure hcapture
      exact plainly_violated hv
    · split
      · exact plainly_violated trivial
      · split
        · exact plainly_violated trivial
        · exact plainly_ok _

theorem plainly_singleRoot (rows : List KeyRow) : Plainly (KeyListing.singleRoot rows) := by
  rw [KeyListing.singleRoot]
  split
  · exact plainly_ok _
  · exact plainly_violated trivial

theorem plainly_newRootRow (history : RootHistory) (rows : List KeyRow) :
    Plainly (newRootRow history rows) := by
  rw [newRootRow]
  split
  · exact plainly_ok _
  · exact plainly_violated trivial

theorem plainly_agreedListing (first second : String) : Plainly (agreedListing first second) := by
  rw [agreedListing]
  split
  · exact plainly_violated trivial
  · exact plainly_ok _

/-! ## Bodies -/

section Bodies

variable {script : List Invocation} {due : Nat → Option Stage} {n k : Nat}

theorem Blames.announce {f : Unit → Trial σ α} {title : String}
    (hf : Blames m site stand.secondary script due n k (f ())) :
    Blames m site stand.secondary script due n k (announce m title >>= f) :=
  (Blames.smooth (quiet_announce m title) fun _ => ⟨_, _, rfl⟩).bind fun _ => hf

theorem Blames.enter {f : Unit → Trial σ α} {stage : Stage}
    (hf : Blames m site stand.secondary script due n k (f ())) :
    Blames m site stand.secondary script due n k (enter stage >>= f) :=
  (Blames.smooth (quiet_enter stage) fun _ => ⟨_, _, rfl⟩).bind fun _ => hf

theorem Blames.pure {a : α} : Blames m site stand.secondary script due n n (pure a) :=
  .smooth (quiet_pure a) fun _ => ⟨_, _, rfl⟩

theorem blames_publish {d : TrustDir}
    (hi : script[n]? = some (d.invocation ["publish", site.repo])) :
    Blames m site stand.secondary script due n (n + 1) (publish m site d) :=
  (Blames.call hi).bind fun _ => .pure

theorem blames_add {target : String}
    (hi : script[n]? =
      some (site.primary.invocation ["add", site.repo, target, stand.payload])) :
    Blames m site stand.secondary script due n (n + 1) (add m site stand target) :=
  (Blames.call hi).bind fun _ => .pure

theorem blames_listTargets {d : TrustDir}
    (hi : script[n]? = some (d.invocation ["list", site.repo])) :
    Blames m site stand.secondary script due n (n + 1) (listTargets m site d) :=
  .call hi

theorem blames_listKeys {d : TrustDir} (hi : script[n]? = some (d.invocation ["key", "list"])) :
    Blames m site stand.secondary script due n (n + 1) (listKeys m site d) :=
  (Blames.call hi).bind fun _ => .pure

theorem blames_listBoth (hfirst : script[n]? = some (site.primary.invocation ["list", site.repo]))
    (hsecond : script[n + 1]? = some (stand.secondary.invocation ["list", site.repo])) :
    Blames m site stand.secondary script due n (n + 2) (listBoth m site stand) :=
  (blames_listTargets hfirst).bind fun _ => (blames_listTargets hsecond).bind fun _ => .pure

theorem blames_rotateRoot {history : RootHistory} {before : RootState}
    (hrotate : script[n]? = some (rotationCall site.repo site.primary))
    (hkeys : script[n + 1]? = some (site.primary.invocation ["key", "list"]))
    (hsync : script[n + 2]? = some (stand.secondary.invocation ["list", site.repo]))
    (hreloaded : due (n + 2) = some .metadataReloaded) (hverified : due (n + 3) = some .verified) :
    Blames m site stand.secondary script due n (n + 3)
      (rotateRoot m site stand history before) := by
  refine .enter (.announce ((Blames.call hrotate).bind fun _ => ?_))
  refine .enter (.enter ((blames_listKeys hkeys).bind fun _ => ?_))
  refine (Blames.check hreloaded (plainly_newRootRow _ _)).bind fun _ => .enter ?_
  refine (blames_listTargets hsync).bind fun _ => Blames.load.bind fun _ => ?_
  refine (Blames.check hverified (plainly_rotated _ _ _)).bind fun _ => ?_
  exact (Blames.smooth (quiet_note rfl rfl) fun _ => ⟨_, _, rfl⟩).bind fun _ => .pure

/-- The stage that is due in a scenario after so many calls. -/
def dueIn (site : Site) (stand : Stand) (scenario : Scenario) : Nat → Option Stage :=
  stageAfter (scenario.script site.repo site.primary stand) (rotationCall site.repo site.primary)

theorem blames_rootRotation (history : RootHistory) :
    Blames m site stand.secondary (Scenario.rootRotation.script site.repo site.primary stand)
      (dueIn site stand .rootRotation) 0 11 (rootRotation m site stand history) := by
  have hdue : dueIn site stand .rootRotation 3 = some .keysEnumerated ∧
      dueIn site stand .rootRotation 5 = some .metadataReloaded ∧
      dueIn site stand .rootRotation 6 = some .verified ∧
      dueIn site stand .rootRotation 11 = some .continuation := by
    simp [dueIn, stageAfter, Scenario.script, rotationScript, rotationCall, TrustDir.invocation,
      Invocation.new, Invocation.withPayload]
  obtain ⟨henumerated, hreloaded, hverified, hcontinuation⟩ := hdue
  refine .enter ((Blames.call rfl).bind fun _ => .enter (.announce ?_))
  refine (blames_listTargets rfl).bind fun _ => (blames_listKeys rfl).bind fun _ => ?_
  refine (Blames.check henumerated (plainly_singleRoot _)).bind fun _ => ?_
  refine Blames.load.bind fun _ => ?_
  refine (Blames.check henumerated (plainly_capture _)).bind fun _ => ?_
  refine (blames_rotateRoot rfl rfl rfl hreloaded hverified).bind fun _ => .enter (.announce ?_)
  refine (blames_publish rfl).bind fun _ => (blames_add rfl).bind fun _ => ?_
  refine (blames_publish rfl).bind fun _ => (blames_listBoth rfl rfl).bind fun _ => ?_
  refine (Blames.check hcontinuation (plainly_agreedListing _ _)).bind fun _ => ?_
  dsimp only
  split
  · exact .pure
  · exact .refuse hcontinuation trivial

theorem blames_rootRerotation (history : RootHistory) :
    Blames m site stand.secondary (Scenario.rootRerotation.script site.repo site.primary stand)
      (dueIn site stand .rootRerotation) 0 9 (rootRerotation m site stand history) := by
  have hdue : dueIn site stand .rootRerotation 2 = some .keysEnumerated ∧
      dueIn site stand .rootRerotation 4 = some .metadataReloaded ∧
      dueIn site stand .rootRerotation 5 = some .verified ∧
      dueIn site stand .rootRerotation 9 = some .continuation := by
    simp [dueIn, stageAfter, Scenario.script, rotationScript, rotationCall, TrustDir.invocation,
      Invocation.new, Invocation.withPayload]
  obtain ⟨henumerated, hreloaded, hverified, hcontinuation⟩ := hdue
  refine .enter (.announce ((blames_listTargets rfl).bind fun _ => ?_))
  refine (blames_listKeys rfl).bind fun rows => ?_
  dsimp only
  split
  · exact .refuse henumerated trivial
  refine Blames.load.bind fun _ => ?_
  refine (Blames.check henumerated (plainly_capture _)).bind fun _ => ?_
  refine (blames_rotateRoot rfl rfl rfl hreloaded hverified).bind fun _ => .enter (.announce ?_)
  refine (blames_publish rfl).bind fun _ => (blames_publish rfl).bind fun _ => ?_
  refine (blames_listBoth rfl rfl).bind fun _ => ?_
  refine (Blames.check hcontinuation (plainly_agreedListing _ _)).bind fun _ => ?_
  split
  · exact .pure
  · exact .refuse hcontinuation trivial

theorem blames_body (m : Machine σ) (site : Site) (stand : Stand) (history : RootHistory)
    {scenario : Scenario} (h : scenario ≠ .basicRepo) :
    ∃ k, Blames m site stand.secondary (scenario.script site.repo site.primary stand)
      (dueIn site stand scenario) 0 k (body m site stand history scenario) := by
  cases scenario with
  | basicRepo => exact (h rfl).elim
  | rootRotation => exact ⟨11, blames_rootRotation history⟩
  | rootRerotation => exact ⟨9, blames_rootRerotation history⟩

end Bodies

theorem Foreign.ne_violated {d : TrustDir} {script : List Invocation} {t : Session σ} {n : Nat}
    {failure : Failure} (h : Foreign m site d script t n failure) (v : Violation) :
    failure ≠ .violated v := by
  rintro rfl
  cases h with
  | denied _ hdenied => cases hdenied
  | unloaded hload =>
    unfold RootDocument.load at hload
    extract_lets file at hload
    split at hload
    · cases hload
    · split at hload <;> cases hload

/-- A scenario that rotates the root key and fails has made the first calls of its script. If a
check did not hold, all of them went well, their number says in which stage it was, and the message
says the stage once, in front of what the check has to say. Any other failure is one of the last
call, of the next call or of the root document, and comes out as it is. -/
theorem body_blames_stage {m : Machine σ} {site : Site} {stand : Stand} {history : RootHistory}
    {scenario : Scenario} {s t : Session σ} {failure : Failure} (hscenario : scenario ≠ .basicRepo)
    (h : run (body m site stand history scenario) s = (.error failure, t)) :
    ∃ done, calls t.journal = calls s.journal ++ done ∧
      done.map Prod.fst <+:
        (scenario.script site.repo site.primary stand).map (site.runner.request m) ∧
      (∀ v, failure = .violated v → (∀ c ∈ done, c.2.exit = some 0) ∧
        ∃ stage w,
          stageAfter (scenario.script site.repo site.primary stand)
            (rotationCall site.repo site.primary) done.length = some stage ∧
          stage ∈ [.keysEnumerated, .metadataReloaded, .verified, .continuation] ∧
          v = .during stage w ∧ v.message = "[" ++ stage.name ++ "] " ++ w.message ∧
          ∀ other : Stage, ¬("[" ++ other.name ++ "] ").toList <+: w.message.toList) ∧
      ((∀ v, failure ≠ .violated v) →
        Foreign m site stand.secondary (scenario.script site.repo site.primary stand) t done.length
          failure) := by
  obtain ⟨k, hblames⟩ := blames_body m site stand history hscenario
  obtain ⟨done, hcalls, hblamed⟩ := hblames.upshot s
  obtain ⟨done', hcalls', hupshot, -⟩ := (scripted_body m site stand history scenario).upshot s
  obtain rfl := List.append_cancel_left (hcalls.symm.trans hcalls')
  rw [h] at hcalls hblamed hupshot
  simp only [Nat.zero_add] at hblamed
  refine ⟨done, hcalls, hupshot.isPrefix, fun v hv => ⟨?_, ?_⟩, fun hother => ?_⟩
  · subst hv
    refine fun c hc => Decidable.not_not.1 fun hexit => ?_
    obtain ⟨-, hfailure⟩ := hupshot.eq_exited hc hexit
    cases hfailure
  · subst hv
    cases hblamed with
    | check hdue hw => exact ⟨_, _, hdue, stageAfter_mem hdue, rfl, rfl, hw.not_heading⟩
    | foreign hforeign => exact (hforeign.ne_violated v rfl).elim
  · cases hblamed with
    | check => exact (hother _ rfl).elim
    | foreign hforeign => exact hforeign

/-- A client whose only root key is never rotated, whatever it is told. -/
def stubborn : Client Unit := ⟨fun _ c disk => (⟨"root a".toUTF8, "", some 0⟩, c, disk)⟩

/-- The copy of the root document that the secondary identity of this client has. -/
def stubbornRoot : String :=
  "\x7b\"signed\":\x7b\"keys\":\x7b\"a\":0\x7d," ++
    "\"roles\":\x7b\"root\":\x7b\"keyids\":[\"a\"]\x7d\x7d\x7d\x7d"

def stubbornDisk : Disk.Tree :=
  ⟨Main.disk.nodes ++ [(["s"], .directory), (["s", "tuf"], .directory),
    (["s", "tuf", "sample"], .directory), (["s", "tuf", "sample", "metadata"], .directory),
    (["s", "tuf", "sample", "metadata", "root.json"], .file stubbornRoot.toUTF8 false)]⟩

def stubbornSite : Site := ⟨sampleRunner, "sample", ⟨"main", "/p"⟩⟩

def stubbornStand : Stand := ⟨"/tmp/payload", ⟨"temp", "/s"⟩⟩

/-- A rotation with that client. -/
def stubbornRun : Except Failure RootHistory × Session Unit :=
  run (body ((Main.machine "sample").withClient stubborn) stubbornSite stubbornStand .empty
    .rootRerotation) (Session.start stubbornDisk ())

theorem body_blames_stage_stubborn :
    (calls stubbornRun.2.journal).length = 4 ∧
      stubbornRun.1 = .error (.violated (.during .metadataReloaded (.newRootRows []))) ∧
      stageAfter (Scenario.rootRerotation.script "sample" ⟨"main", "/p"⟩ stubbornStand)
        (rotationCall "sample" ⟨"main", "/p"⟩) 4 = some .metadataReloaded := by
  have hends : ((calls stubbornRun.2.journal).length, failure? stubbornRun.1) =
      (4, some (.violated (.during .metadataReloaded (.newRootRows [])))) := by decide +kernel
  obtain ⟨hlength, hfailure⟩ := Prod.mk.inj hends
  rcases h : stubbornRun with ⟨result, t⟩
  rw [h] at hlength hfailure
  cases result with
  | ok history => cases hfailure
  | error failure =>
    cases Option.some.inj hfailure
    obtain ⟨done, hcalls, -, hstage, -⟩ := body_blames_stage (by decide) h
    obtain rfl : done = calls t.journal := hcalls.symm
    obtain ⟨-, _, _, hdue, -, ⟨⟩, -, -⟩ := hstage _ rfl
    rw [hlength] at hdue
    exact ⟨hlength, rfl, hdue⟩

end Trial
end TrustTrial
