import TrustTrial.Proofs.Dicts
import TrustTrial.Proofs.Trace

/-!
# TrustTrial.Proofs.Building

What the client sees of the steps in which its call was built.

A step is of one kind: it gives the payload, turns the credentials off, or sets one variable. Of the
steps of a kind the last one counts, so a call depends on the steps of each kind and on nothing else
(`request_built_congr`), and steps of different kinds may change places (`Shuffled`).
`Trial.execute_shows` says what of it reaches a client that is started.
-/

namespace TrustTrial

/-- The variables of the passphrases have four different names, so that the first entry of a name is
the last one. -/
theorem lastEntry_passphrases (p : Passphrases) (name : String) :
    lastEntry name p.assignments = findEntry name p.assignments := by
  by_cases hroot : name = "NOTARY_ROOT_PASSPHRASE"
  · simp [lastEntry, findEntry, Passphrases.assignments, hroot]
  · by_cases htargets : name = "NOTARY_TARGETS_PASSPHRASE"
    · simp [lastEntry, findEntry, Passphrases.assignments, htargets]
    · by_cases hsnapshot : name = "NOTARY_SNAPSHOT_PASSPHRASE"
      · simp [lastEntry, findEntry, Passphrases.assignments, hsnapshot]
      · by_cases hdelegation : name = "NOTARY_DELEGATION_PASSPHRASE"
        · simp [lastEntry, findEntry, Passphrases.assignments, hdelegation]
        · simp [lastEntry, findEntry, Passphrases.assignments, *, Ne.symm hroot, Ne.symm htargets,
            Ne.symm hsnapshot, Ne.symm hdelegation]

namespace Invocation

/-- The invocation that comes of some steps, in order. -/
def built (trustDir : String) (args : List String) (steps : List Step) : Invocation :=
  steps.foldl apply (.new trustDir args)

/-- What a step is about. -/
inductive Kind where
  | payload
  | offline
  | variable (name : String)
  deriving DecidableEq

namespace Step

def kind : Step → Kind
  | .payload _ => .payload
  | .offline => .offline
  | .assign name _ => .variable name

def payload? : Step → Option String
  | .payload text => some text
  | _ => none

def assignment? : Step → Option (String × String)
  | .assign name value => some (name, value)
  | _ => none

end Step

/-- The payload of the last step that gives one. -/
def lastPayload (steps : List Step) : Option String := (steps.filterMap Step.payload?).getLast?

/-- The value of the last step that sets a variable. -/
def lastValue (name : String) (steps : List Step) : Option String :=
  lastEntry name (steps.filterMap Step.assignment?)

variable {trustDir : String} {args : List String} {steps steps' : List Step}

/-! ## The fields of what is built -/

theorem built_concat (steps : List Step) (s : Step) :
    built trustDir args (steps ++ [s]) = (built trustDir args steps).apply s := by
  simp [built]

theorem built_args (steps : List Step) : (built trustDir args steps).args = args := by
  induction steps using List.reverseRecOn with
  | nil => rfl
  | append_singleton steps s ih => cases s <;> rw [built_concat] <;> exact ih

theorem built_trustDir (steps : List Step) : (built trustDir args steps).trustDir = trustDir := by
  induction steps using List.reverseRecOn with
  | nil => rfl
  | append_singleton steps s ih => cases s <;> rw [built_concat] <;> exact ih

theorem built_payload (steps : List Step) :
    (built trustDir args steps).payload = lastPayload steps := by
  induction steps using List.reverseRecOn with
  | nil => rfl
  | append_singleton steps s ih =>
    rw [built_concat]
    cases s with
    | payload text => simp [apply, withPayload, lastPayload, Step.payload?]
    | offline => simpa [apply, withoutCredentials, lastPayload, Step.payload?] using ih
    | assign name value => simpa [apply, withVariable, lastPayload, Step.payload?] using ih

theorem built_offline (steps : List Step) :
    (built trustDir args steps).offline = decide (.offline ∈ steps) := by
  induction steps using List.reverseRecOn with
  | nil => rfl
  | append_singleton steps s ih =>
    rw [built_concat]
    cases s with
    | payload text => simpa [apply, withPayload] using ih
    | offline => simp [apply, withoutCredentials]
    | assign name value => simpa [apply, withVariable] using ih

theorem built_assignments (steps : List Step) :
    (built trustDir args steps).assignments = steps.filterMap Step.assignment? := by
  induction steps using List.reverseRecOn with
  | nil => rfl
  | append_singleton steps s ih =>
    rw [built_concat]
    cases s with
    | payload text => simpa [apply, withPayload, List.filterMap_cons, Step.assignment?] using ih
    | offline => simpa [apply, withoutCredentials, List.filterMap_cons, Step.assignment?] using ih
    | assign name value => simp [apply, withVariable, Step.assignment?, ih]

/-! ## Steps of one kind -/

/-- The steps of each kind are the same, in the same order. -/
def SameKinds (steps steps' : List Step) : Prop :=
  ∀ k, steps.filter (·.kind = k) = steps'.filter (·.kind = k)

theorem filterMap_payload (steps : List Step) :
    (steps.filter (·.kind = .payload)).filterMap Step.payload? =
      steps.filterMap Step.payload? := by
  rw [List.filterMap_filter]
  congr 1
  funext s
  cases s <;> rfl

theorem mem_offline (steps : List Step) :
    .offline ∈ steps.filter (·.kind = .offline) ↔ .offline ∈ steps := by
  simp [Step.kind]

theorem lastValue_filter (name : String) (steps : List Step) :
    lastValue name (steps.filter (·.kind = .variable name)) = lastValue name steps := by
  rw [lastValue, lastValue, lastEntry, lastEntry, List.filterMap_filter,
    List.filterMap_filterMap, List.filterMap_filterMap]
  congr 2
  funext s
  cases s with
  | payload text => rfl
  | offline => rfl
  | assign other value => by_cases h : other = name <;> simp [Step.kind, Step.assignment?, h]

theorem SameKinds.lastPayload (h : SameKinds steps steps') :
    lastPayload steps = Invocation.lastPayload steps' := by
  rw [Invocation.lastPayload, ← filterMap_payload, h, filterMap_payload, Invocation.lastPayload]

theorem SameKinds.mem_offline (h : SameKinds steps steps') :
    .offline ∈ steps ↔ .offline ∈ steps' := by
  rw [← Invocation.mem_offline, h, Invocation.mem_offline]

theorem SameKinds.lastValue (h : SameKinds steps steps') (name : String) :
    lastValue name steps = Invocation.lastValue name steps' := by
  rw [← lastValue_filter, h, lastValue_filter]

/-! ## Reordering -/

/-- Steps change places with steps of other kinds. -/
inductive Shuffled : List Step → List Step → Prop where
  | refl (steps : List Step) : Shuffled steps steps
  | swap (before after : List Step) {s t : Step} :
      s.kind ≠ t.kind → Shuffled (before ++ s :: t :: after) (before ++ t :: s :: after)
  | trans {steps steps' steps'' : List Step} :
      Shuffled steps steps' → Shuffled steps' steps'' → Shuffled steps steps''

theorem sameKinds_swap (before after : List Step) {s t : Step} (h : s.kind ≠ t.kind) :
    SameKinds (before ++ s :: t :: after) (before ++ t :: s :: after) := by
  intro k
  rw [List.filter_append, List.filter_append]
  by_cases hs : s.kind = k
  · have ht : t.kind ≠ k := fun ht => h (hs.trans ht.symm)
    simp [hs, ht]
  · simp [List.filter_cons, hs]

theorem Shuffled.sameKinds (h : Shuffled steps steps') : SameKinds steps steps' := by
  induction h with
  | refl => exact fun _ => rfl
  | swap before after hkind => exact sameKinds_swap before after hkind
  | trans _ _ ih ih' => exact fun k => (ih k).trans (ih' k)

theorem Shuffled.cons (s : Step) (h : Shuffled steps steps') :
    Shuffled (s :: steps) (s :: steps') := by
  induction h with
  | refl => exact .refl _
  | swap before after hkind => exact .swap (s :: before) after hkind
  | trans _ _ ih ih' => exact .trans ih ih'

/-- A step moves to the front past steps of other kinds. -/
theorem shuffled_front {s : Step} (before after : List Step) (h : ∀ t ∈ before, s.kind ≠ t.kind) :
    Shuffled (s :: (before ++ after)) (before ++ s :: after) := by
  induction before with
  | nil => exact .refl _
  | cons t before ih =>
    have ht : s.kind ≠ t.kind := h t List.mem_cons_self
    exact .trans (.swap [] (before ++ after) ht)
      (.cons t (ih fun u hu => h u (List.mem_cons_of_mem _ hu)))

/-- The first step of its kind, in a list whose steps of that kind begin with it. -/
theorem split_of_filter {s : Step} {rest : List Step}
    (h : steps.filter (·.kind = s.kind) = s :: rest) :
    ∃ before after, steps = before ++ s :: after ∧ ∀ t ∈ before, s.kind ≠ t.kind := by
  obtain ⟨before, after, rfl, hbefore, -, -⟩ := List.filter_eq_cons_iff.1 h
  refine ⟨before, after, rfl, fun t ht hkind => ?_⟩
  exact hbefore t ht (decide_eq_true hkind.symm)

/-- A reordering is a list with the same steps of each kind. -/
theorem shuffled_iff : Shuffled steps steps' ↔ SameKinds steps steps' := by
  refine ⟨Shuffled.sameKinds, fun h => ?_⟩
  induction steps generalizing steps' with
  | nil =>
    cases steps' with
    | nil => exact .refl _
    | cons s steps' => simpa using h s.kind
  | cons s steps ih =>
    have hfirst : steps'.filter (·.kind = s.kind) = s :: steps.filter (·.kind = s.kind) := by
      rw [← h s.kind]
      simp
    obtain ⟨before, after, rfl, hbefore⟩ := split_of_filter hfirst
    have hfront : Shuffled (s :: (before ++ after)) (before ++ s :: after) :=
      shuffled_front before after hbefore
    refine .trans (.cons s (ih fun k => ?_)) hfront
    have hk := (h k).trans (hfront.sameKinds k).symm
    by_cases hs : s.kind = k
    · simpa [hs] using hk
    · simpa [hs] using hk

end Invocation

/-! ## What the client sees -/

namespace Trial

open Invocation

variable {σ : Type} {trustDir : String} {args : List String} {steps steps' : List Step}

/-- What a started client sees of the steps of its call: each variable from the innermost of three
layers that has it, and on the input the payload before the credentials. -/
structure Shown (m : Machine σ) (r : Runner) (steps : List Step) (request : Request) : Prop where
  environment : ∀ name, request.environment.get? name =
    ((lastValue name steps).or (findEntry name r.passphrases.assignments)).or
      (m.environment.get? name)
  stdin : request.stdin = (Prompts.encode (Prompts.plan (lastPayload steps)
    (if .offline ∈ steps then none else r.credentials))).toUTF8

theorem get?_environment_built (r : Runner) (steps : List Step) (inherited : Dict String)
    (name : String) :
    (r.environment (built trustDir args steps) inherited).get? name =
      ((lastValue name steps).or (findEntry name r.passphrases.assignments)).or
        (inherited.get? name) := by
  rw [Runner.environment, Dict.get?_foldl_insert, lastEntry_append, lastEntry_passphrases,
    built_assignments, lastValue]

theorem shown_built (m : Machine σ) (r : Runner) (steps : List Step) :
    Shown m r steps (r.request m (built trustDir args steps)) where
  environment := get?_environment_built r steps m.environment
  stdin := by
    simp [Runner.request, answers, built_payload, built_offline]

/-- A call depends on the steps of each kind and on nothing else. -/
theorem request_built_congr (m : Machine σ) (r : Runner) (h : SameKinds steps steps') :
    r.request m (built trustDir args steps') = r.request m (built trustDir args steps) := by
  have hargs : r.arguments (built trustDir args steps') =
      r.arguments (built trustDir args steps) := by
    simp [Runner.arguments, built_args, built_trustDir]
  have hanswers : (built trustDir args steps').answers r.credentials =
      (built trustDir args steps).answers r.credentials := by
    simp [answers, built_payload, built_offline, h.lastPayload, h.mem_offline]
  have henvironment : r.environment (built trustDir args steps') m.environment =
      r.environment (built trustDir args steps) m.environment := by
    refine Dict.eq_of_get? fun name => ?_
    rw [get?_environment_built, get?_environment_built, h.lastValue]
  rw [Runner.request, hargs, hanswers, henvironment]
  rfl

/-- The whole run depends on them in the same way. -/
theorem run_execute_congr (m : Machine σ) (r : Runner) (h : SameKinds steps steps')
    (s : Session σ) :
    run (execute m r (built trustDir args steps')) s =
      run (execute m r (built trustDir args steps)) s := by
  have hcommand : r.commandLine (built trustDir args steps') =
      r.commandLine (built trustDir args steps) := by
    simp [Runner.commandLine, Runner.arguments, built_args, built_trustDir]
  rw [run_execute, run_execute, request_built_congr m r h, hcommand]

/-- A client that is started sees of the steps of its call the last value of each variable, else
the passphrase or the inherited value, and the last payload, with the credentials unless one of the
steps turns them off. The order of steps of different kinds makes no difference to it, nor to
anything else. -/
theorem execute_shows {m : Machine σ} {r : Runner} {s t : Session σ}
    {result : Except Failure Outcome}
    (h : run (execute m r (built trustDir args steps)) s = (result, t)) :
    ((∃ failure, result = .error failure ∧ calls t.journal = calls s.journal ∧
        Denied m (r.commandLine (built trustDir args steps))
          (r.request m (built trustDir args steps)) s.disk failure) ∨
      ∃ request reply, result = .ok ⟨Text.ofBytes reply.stdout, reply.exit⟩ ∧
        calls t.journal = calls s.journal ++ [(request, reply)] ∧
        m.client.run request s.client s.disk = (reply, t.client, t.disk) ∧
        Shown m r steps request) ∧
      ∀ steps', Shuffled steps steps' →
        run (execute m r (built trustDir args steps')) s = (result, t) := by
  refine ⟨?_, fun steps' hsteps => ?_⟩
  · rcases executed h with ⟨failure, hresult, hdenied, -, -, -, hjournal⟩ |
      ⟨-, -, reply, hresult, hrun, -, hjournal⟩
    · exact .inl ⟨failure, hresult, by rw [hjournal], hdenied⟩
    · refine .inr ⟨_, reply, hresult, ?_, hrun, shown_built m r steps⟩
      rw [hjournal]
      simp [calls, Event.call?]
  · rw [run_execute_congr m r hsteps.sameKinds, h]

/-- Steps of every kind, the credentials turned off in their midst. -/
def manySteps : List Step := [
  .payload "no", .assign "NOTARY_ROOT_PASSPHRASE" "old", .offline, .payload "yes",
  .assign "NOTARY_ROOT_PASSPHRASE" "new"]

/-- A call that is built in these steps, by a runner that has credentials. -/
def manyStepsRun (steps : List Step) : Except Failure Outcome × Session Unit :=
  run (execute ((Main.machine "sample").withClient killed)
      { sampleRunner with credentials := some ⟨"alice", "secret"⟩ } (built "/p" ["list"] steps))
    (Session.start Main.disk ())

theorem execute_shows_manySteps :
    (∃ request reply, calls (manyStepsRun manySteps).2.journal = [(request, reply)] ∧
      request.environment.get? "NOTARY_ROOT_PASSPHRASE" = some "new" ∧
      request.environment.get? "NOTARY_TARGETS_PASSPHRASE" = some "targets" ∧
      request.environment.get? "TMPDIR" = some "/tmp" ∧ request.stdin = "yes".toUTF8) ∧
    manyStepsRun [.payload "no", .offline, .assign "NOTARY_ROOT_PASSPHRASE" "old", .payload "yes",
      .assign "NOTARY_ROOT_PASSPHRASE" "new"] = manyStepsRun manySteps := by
  have hstarts : (calls (manyStepsRun manySteps).2.journal).length = 1 := by decide +kernel
  rcases h : manyStepsRun manySteps with ⟨result, t⟩
  rw [h] at hstarts
  obtain ⟨⟨failure, -, hnone, -⟩ | ⟨request, reply, -, hcalls, -, hshown⟩, hshuffled⟩ :=
    execute_shows h
  · rw [hnone] at hstarts
    cases hstarts
  · refine ⟨⟨request, reply, hcalls, ?_, ?_, ?_, ?_⟩,
      hshuffled _ (.swap [.payload "no"] _ (by decide))⟩
    · exact (hshown.environment _).trans (by decide)
    · exact (hshown.environment _).trans (by decide)
    · exact (hshown.environment _).trans (by decide)
    · exact hshown.stdin.trans (by rfl)

end Trial
end TrustTrial
