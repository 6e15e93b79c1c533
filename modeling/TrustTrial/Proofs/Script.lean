import TrustTrial.Proofs.Steps

/-!
# TrustTrial.Proofs.Script

The calls of a trial are fixed in advance. Every scenario has a script, a list of invocations, and
its body carries it out from the front until something fails; what the client answers decides only
how far it comes.

`Scripted` says this of a step, rule by rule, so that it is proved once for every body. What a
script tells about the calls of a run (`Scripted.upshot`) and about everything that calls leave
alone (`Scripted.preserves`) follows by induction on the rules.
-/

namespace TrustTrial

/-! ## Scripts -/

/-- The calls of a rotation of the root key with the checks after it. -/
def rotationScript (repo : String) (primary : TrustDir) (stand : Stand) : List Invocation := [
  (primary.invocation ["key", "rotate", repo, "root"]).withPayload rotationConfirmation,
  primary.invocation ["key", "list"],
  stand.secondary.invocation ["list", repo]]

/-- The calls of a scenario. -/
def Scenario.script (repo : String) (primary : TrustDir) (stand : Stand) :
    Scenario → List Invocation
  | .basicRepo => [
    primary.invocation ["init", repo],
    primary.invocation ["add", repo, basicTarget, stand.payload],
    primary.invocation ["publish", repo],
    primary.invocation ["list", repo],
    stand.secondary.invocation ["list", repo],
    (primary.invocation
      ["verify", repo, basicTarget, "-i", stand.payload, "-q"]).withoutCredentials]
  | .rootRotation => [
    primary.invocation ["key", "rotate", repo, "snapshot", "-r"],
    stand.secondary.invocation ["list", repo],
    primary.invocation ["key", "list"]] ++ rotationScript repo primary stand ++ [
    stand.secondary.invocation ["publish", repo],
    primary.invocation ["add", repo, rotationTarget, stand.payload],
    primary.invocation ["publish", repo],
    primary.invocation ["list", repo],
    stand.secondary.invocation ["list", repo]]
  | .rootRerotation => [
    stand.secondary.invocation ["list", repo],
    primary.invocation ["key", "list"]] ++ rotationScript repo primary stand ++ [
    stand.secondary.invocation ["publish", repo],
    primary.invocation ["publish", repo],
    primary.invocation ["list", repo],
    stand.secondary.invocation ["list", repo]]

/-- The calls of scenarios one after the other; `stands k` is what the scenario number `k` gets for
itself. -/
def scriptFrom (repo : String) (primary : TrustDir) (stands : Nat → Stand) :
    Nat → List Scenario → List Invocation
  | _, [] => []
  | k, scenario :: scenarios =>
    scenario.script repo primary (stands k) ++ scriptFrom repo primary stands (k + 1) scenarios

/-- A call that hands the client no more than the operating system takes. -/
def Runner.Fits {σ : Type} (r : Runner) (m : Machine σ) (i : Invocation) : Prop :=
  (r.request m i).oversize m.argumentSpace = false

instance {σ : Type} (r : Runner) (m : Machine σ) (i : Invocation) : Decidable (r.Fits m i) :=
  inferInstanceAs (Decidable (_ = false))

/-- The command line that a request was made from. -/
def Request.commandLine (q : Request) : String := " ".intercalate (q.program :: q.args)

namespace Trial

variable {σ α β : Type}

/-! ## Names of temporary entries -/

/-- The path of a temporary entry, by its number. -/
def entryPath (m : Machine σ) (ending : String) (n : Nat) : String :=
  Disk.Path.join m.tempDir (".tmp" ++ m.tempName n ++ ending)

/-- The primary identity of a trial. -/
def primaryOf (m : Machine σ) : TrustDir := ⟨"main", entryPath m "_main" 0⟩

/-- What the scenario number `k` of a trial gets for itself. -/
def standOf (m : Machine σ) (k : Nat) : Stand :=
  ⟨entryPath m "" (2 * k + 1), ⟨"temp", entryPath m "_temp" (2 * k + 2)⟩⟩

/-- All calls of a trial, if nothing fails. -/
def script (m : Machine σ) (repo : String) (scenarios : List Scenario) : List Invocation :=
  scriptFrom repo (primaryOf m) (standOf m) 0 scenarios

/-! ## Steps that follow a script -/

/-- A step that makes the calls of a script in order and stops at the latest when one fails. -/
inductive Scripted (m : Machine σ) (r : Runner) :
    {α : Type} → List Invocation → Trial σ α → Prop where
  | quiet {α : Type} {x : Trial σ α} : Quiet x → Scripted m r [] x
  | fail {α : Type} (failure : Failure) (is : List Invocation) :
      Scripted m r is (throw failure : Trial σ α)
  | call (i : Invocation) : Scripted m r [i] (invoke m r i)
  | bind {α β : Type} {x : Trial σ α} {f : α → Trial σ β} {is js : List Invocation} :
      Scripted m r is x → (∀ a, Scripted m r js (f a)) → Scripted m r (is ++ js) (x >>= f)

namespace Scripted

variable {m : Machine σ} {r : Runner}

/-- A quiet step in front of a script. -/
theorem after {x : Trial σ α} {f : α → Trial σ β} {is : List Invocation} (hx : Quiet x)
    (hf : ∀ a, Scripted m r is (f a)) : Scripted m r is (x >>= f) := by
  simpa using Scripted.bind (.quiet hx) hf

/-- A call in front of a script. -/
theorem cons {i : Invocation} {f : String → Trial σ β} {is : List Invocation}
    (hf : ∀ a, Scripted m r is (f a)) : Scripted m r (i :: is) (invoke m r i >>= f) :=
  Scripted.bind (.call i) hf

/-- A script in front of steps that call nothing more. -/
theorem last {x : Trial σ α} {f : α → Trial σ β} {is : List Invocation} (hx : Scripted m r is x)
    (hf : ∀ a, Scripted m r [] (f a)) : Scripted m r is (x >>= f) := by
  simpa using hx.bind hf

end Scripted

section Bodies

variable (m : Machine σ) (site : Site) (stand : Stand)

theorem scripted_publish (d : TrustDir) :
    Scripted m site.runner [d.invocation ["publish", site.repo]] (publish m site d) :=
  .cons fun _ => .quiet (quiet_pure _)

theorem scripted_add (target : String) :
    Scripted m site.runner [site.primary.invocation ["add", site.repo, target, stand.payload]]
      (add m site stand target) :=
  .cons fun _ => .quiet (quiet_pure _)

theorem scripted_listTargets (d : TrustDir) :
    Scripted m site.runner [d.invocation ["list", site.repo]] (listTargets m site d) :=
  .call _

theorem scripted_listKeys (d : TrustDir) :
    Scripted m site.runner [d.invocation ["key", "list"]] (listKeys m site d) :=
  .cons fun _ => .quiet (quiet_pure _)

theorem scripted_listBoth :
    Scripted m site.runner
      [site.primary.invocation ["list", site.repo],
        stand.secondary.invocation ["list", site.repo]]
      (listBoth m site stand) :=
  (scripted_listTargets m site _).bind fun _ => .last (scripted_listTargets m site _)
    fun _ => .quiet (quiet_pure _)

theorem scripted_rotateRoot (history : RootHistory) (before : RootState) :
    Scripted m site.runner (rotationScript site.repo site.primary stand)
      (rotateRoot m site stand history before) := by
  refine .after (quiet_enter _) fun _ => .after (quiet_announce _ _) fun _ => ?_
  refine .cons fun _ => .after (quiet_enter _) fun _ => .after (quiet_enter _) fun _ => ?_
  refine (scripted_listKeys m site _).bind fun _ => .after (quiet_inStage _ _) fun _ => ?_
  refine .after (quiet_enter _) fun _ => .last (scripted_listTargets m site _) fun _ => ?_
  refine .after (quiet_loadRoot _ _ _) fun _ => .after (quiet_inStage _ _) fun _ => ?_
  exact .after (quiet_note rfl rfl) fun _ => .quiet (quiet_pure _)

theorem scripted_basicRepo :
    Scripted m site.runner (Scenario.basicRepo.script site.repo site.primary stand)
      (basicRepo m site stand) := by
  refine .after (quiet_announce _ _) fun _ => .cons fun _ => ?_
  refine (scripted_add m site stand _).bind fun _ => (scripted_publish m site _).bind fun _ => ?_
  refine .after (quiet_announce _ _) fun _ => (scripted_listBoth m site stand).bind fun _ => ?_
  refine .after (quiet_ofExcept _) fun rows => ?_
  split
  · exact .cons fun _ => .quiet (quiet_pure _)
  · exact .fail _ _

theorem scripted_rootRotation (history : RootHistory) :
    Scripted m site.runner (Scenario.rootRotation.script site.repo site.primary stand)
      (rootRotation m site stand history) := by
  refine .after (quiet_enter _) fun _ => .cons fun _ => .after (quiet_enter _) fun _ => ?_
  refine .after (quiet_announce _ _) fun _ => (scripted_listTargets m site _).bind fun _ => ?_
  refine (scripted_listKeys m site _).bind fun _ => .after (quiet_inStage _ _) fun _ => ?_
  refine .after (quiet_loadRoot _ _ _) fun _ => .after (quiet_inStage _ _) fun _ => ?_
  refine (scripted_rotateRoot m site stand _ _).bind fun _ => .after (quiet_enter _) fun _ => ?_
  refine .after (quiet_announce _ _) fun _ => (scripted_publish m site _).bind fun _ => ?_
  refine (scripted_add m site stand _).bind fun _ => (scripted_publish m site _).bind fun _ => ?_
  refine .last (scripted_listBoth m site stand) fun _ => ?_
  refine .after (quiet_inStage _ _) fun targets => ?_
  dsimp only
  split
  · exact .quiet (quiet_pure _)
  · exact .fail _ _

theorem scripted_rootRerotation (history : RootHistory) :
    Scripted m site.runner (Scenario.rootRerotation.script site.repo site.primary stand)
      (rootRerotation m site stand history) := by
  refine .after (quiet_enter _) fun _ => .after (quiet_announce _ _) fun _ => ?_
  refine (scripted_listTargets m site _).bind fun _ => ?_
  refine (scripted_listKeys m site _).bind fun rows => ?_
  dsimp only
  split
  · exact .fail _ _
  refine .after (quiet_loadRoot _ _ _) fun _ => .after (quiet_inStage _ _) fun _ => ?_
  refine (scripted_rotateRoot m site stand _ _).bind fun _ => .after (quiet_enter _) fun _ => ?_
  refine .after (quiet_announce _ _) fun _ => (scripted_publish m site _).bind fun _ => ?_
  refine (scripted_publish m site _).bind fun _ => ?_
  refine .last (scripted_listBoth m site stand) fun _ => ?_
  refine .after (quiet_inStage _ _) fun targets => ?_
  split
  · exact .quiet (quiet_pure _)
  · exact .fail _ _

/-- Every body follows the script of its scenario. -/
theorem scripted_body (history : RootHistory) (scenario : Scenario) :
    Scripted m site.runner (scenario.script site.repo site.primary stand)
      (body m site stand history scenario) := by
  cases scenario with
  | basicRepo =>
    exact .last (scripted_basicRepo m site stand) fun _ => .quiet (quiet_pure _)
  | rootRotation => exact scripted_rootRotation m site stand history
  | rootRerotation => exact scripted_rootRerotation m site stand history

end Bodies

/-! ## What a script tells -/

/-- The failure of a run, if it failed. -/
def failure? : Except Failure α → Option Failure
  | .ok _ => none
  | .error failure => some failure

@[simp] theorem failure?_ok (a : α) : failure? (.ok a) = none := rfl

@[simp] theorem failure?_error (failure : Failure) :
    failure? (.error failure : Except Failure α) = some failure := rfl

/-- How a run along a list of requests can end, by its failure and the calls it made: it gets
through; it gives up between two calls; or a client ends without success, and that is what the run
reports. -/
inductive Upshot (plan : List Request) : Option Failure → List (Request × Reply) → Prop where
  | finished {done : List (Request × Reply)} :
      done.map Prod.fst = plan → (∀ c ∈ done, c.2.exit = some 0) → Upshot plan none done
  | gaveUp {failure : Failure} {done : List (Request × Reply)} :
      done.map Prod.fst <+: plan → (∀ c ∈ done, c.2.exit = some 0) →
      Upshot plan (some failure) done
  | stopped {q : Request} {reply : Reply} {done : List (Request × Reply)} :
      done.map Prod.fst ++ [q] <+: plan → (∀ c ∈ done, c.2.exit = some 0) →
      reply.exit ≠ some 0 →
      Upshot plan (some (.exited q.commandLine reply.exit (Text.ofBytes reply.stdout)))
        (done ++ [(q, reply)])

namespace Upshot

variable {plan more : List Request} {done before : List (Request × Reply)}

theorem nil (failure : Option Failure) : Upshot [] failure [] := by
  cases failure with
  | none => exact .finished rfl (by simp)
  | some failure => exact .gaveUp List.prefix_rfl (by simp)

/-- A run that fails on the way fails so on a longer way. -/
theorem some_append {failure : Failure} (h : Upshot plan (some failure) done) :
    Upshot (plan ++ more) (some failure) done := by
  cases h with
  | gaveUp hplan hdone => exact .gaveUp (hplan.trans (List.prefix_append _ _)) hdone
  | stopped hplan hdone hexit =>
    exact .stopped (hplan.trans (List.prefix_append _ _)) hdone hexit

theorem none_append {failure : Option Failure} (h : Upshot plan none before)
    (h' : Upshot more failure done) : Upshot (plan ++ more) failure (before ++ done) := by
  cases h with
  | finished hplan hbefore =>
    subst hplan
    cases h' with
    | finished hmore hdone =>
      refine .finished (by simp [hmore]) fun c hc => ?_
      exact (List.mem_append.1 hc).elim (hbefore c) (hdone c)
    | gaveUp hmore hdone =>
      refine .gaveUp (by simpa using hmore) fun c hc => ?_
      exact (List.mem_append.1 hc).elim (hbefore c) (hdone c)
    | stopped hmore hdone hexit =>
      rw [← List.append_assoc]
      refine .stopped (by simpa [List.append_assoc] using hmore) (fun c hc => ?_) hexit
      exact (List.mem_append.1 hc).elim (hbefore c) (hdone c)

/-- A run that gets through and fails afterwards. -/
theorem spoiled (h : Upshot plan none done) (failure : Failure) :
    Upshot plan (some failure) done := by
  cases h with
  | finished hplan hdone => exact .gaveUp (hplan ▸ List.prefix_rfl) hdone

/-- The calls of a run are a beginning of the plan. -/
theorem isPrefix {failure : Option Failure} (h : Upshot plan failure done) :
    done.map Prod.fst <+: plan := by
  cases h with
  | finished hplan _ => exact hplan ▸ List.prefix_rfl
  | gaveUp hplan _ => exact hplan
  | stopped hplan _ _ => simpa using hplan

/-- A call that ends without success is the last one, and its end is what the run reports. -/
theorem eq_exited {failure : Option Failure} (h : Upshot plan failure done)
    {c : Request × Reply} (hc : c ∈ done) (hexit : c.2.exit ≠ some 0) :
    (∃ front, done = front ++ [c]) ∧
      failure = some (.exited c.1.commandLine c.2.exit (Text.ofBytes c.2.stdout)) := by
  cases h with
  | finished _ hdone => exact absurd (hdone c hc) hexit
  | gaveUp _ hdone => exact absurd (hdone c hc) hexit
  | @stopped q reply done _ hdone _ =>
    rcases List.mem_append.1 hc with hc | hc
    · exact absurd (hdone c hc) hexit
    · cases List.mem_singleton.1 hc
      exact ⟨⟨done, rfl⟩, rfl⟩

end Upshot

namespace Scripted

variable {m : Machine σ} {r : Runner} {is : List Invocation} {x : Trial σ α}

/-- A run along a script makes its calls from the front, as far as they fit. -/
theorem upshot (h : Scripted m r is x) : ∀ (s : Session σ),
    ∃ done, calls (run x s).2.journal = calls s.journal ++ done ∧
      Upshot (is.map (r.request m)) (failure? (run x s).1) done ∧
      (∀ c ∈ done, c.1.oversize m.argumentSpace = false) ∧ (run x s).2.temps = s.temps := by
  induction h with
  | quiet hx =>
    intro s
    exact ⟨[], by simp [(hx s).calls], .nil _, by simp, (hx s).temps⟩
  | fail failure is =>
    intro s
    exact ⟨[], by simp, .gaveUp List.nil_prefix (by simp), by simp, rfl⟩
  | call i =>
    intro s
    rcases hrun : run (invoke m r i) s with ⟨result, t⟩
    cases invoked hrun with
    | refused _ _ _ htemps hjournal =>
      exact ⟨[], by simp [hjournal], .gaveUp List.nil_prefix (by simp), by simp, htemps⟩
    | @answered reply _ _ hstarts _ htemps hjournal =>
      refine ⟨[(r.request m i, reply)], by simp [hjournal, calls, Event.call?], ?_,
        by simpa using not_oversize hstarts, htemps⟩
      simp only [Outcome.output]
      split
      · rename_i hexit
        refine .finished rfl fun c hc => ?_
        cases List.mem_singleton.1 hc
        exact of_decide_eq_true hexit
      · rename_i hexit
        have hnone : ∀ c ∈ ([] : List (Request × Reply)), c.2.exit = some 0 := by simp
        exact .stopped List.prefix_rfl hnone fun h => hexit (decide_eq_true h)
  | @bind _ _ x f is js _ _ ihx ihf =>
    intro s
    obtain ⟨before, hcalls, hupshot, hfit, htemps⟩ := ihx s
    rw [List.map_append, run_bind]
    rcases hrun : run x s with ⟨result, t⟩
    rw [hrun] at hcalls hupshot htemps
    cases result with
    | error failure => exact ⟨before, hcalls, hupshot.some_append, hfit, htemps⟩
    | ok a =>
      obtain ⟨done, hcalls', hupshot', hfit', htemps'⟩ := ihf a t
      refine ⟨before ++ done, ?_, hupshot.none_append hupshot',
        List.forall_mem_append.2 ⟨hfit, hfit'⟩, htemps'.trans htemps⟩
      rw [hcalls', hcalls, List.append_assoc]

/-- What quiet steps and the calls of a script keep is kept by a run along the script. -/
theorem preserves {I : Session σ → Prop} (hquiet : ∀ s t, SameWorld s t → I s → I t)
    (h : Scripted m r is x)
    (hcall : ∀ i ∈ is, ∀ s t reply, I s →
      m.client.run (r.request m i) s.client s.disk = (reply, t.client, t.disk) →
      t.temps = s.temps → t.journal = s.journal ++ [.called (r.request m i) reply] → I t) :
    ∀ s, I s → I (run x s).2 := by
  induction h with
  | quiet hx => exact fun s hs => hquiet s _ (hx s) hs
  | fail failure is => exact fun s hs => hs
  | call i =>
    intro s hs
    rcases hrun : run (invoke m r i) s with ⟨result, t⟩
    cases invoked hrun with
    | refused _ hdisk hclient htemps hjournal =>
      exact hquiet s t ⟨hdisk, hclient, htemps, by rw [hjournal], by rw [hjournal]⟩ hs
    | answered _ _ hanswer htemps hjournal =>
      exact hcall i (List.mem_singleton_self i) s t _ hs hanswer htemps hjournal
  | @bind _ _ x f is js _ _ ihx ihf =>
    intro s hs
    have ht := ihx (fun i hi => hcall i (List.mem_append_left _ hi)) s hs
    rw [run_bind]
    rcases hrun : run x s with ⟨result, t⟩
    rw [hrun] at ht
    cases result with
    | error failure => exact ht
    | ok a => exact ihf a (fun i hi => hcall i (List.mem_append_right _ hi)) t ht

end Scripted

end Trial
end TrustTrial
