import TrustTrial.Trial

/-!
# TrustTrial.Proofs.Steps

What the steps of a trial do to its session, told once for the proofs that follow.

* `run_bind_ok`: a sequence of steps succeeds exactly if each of them does.
* `Invoked`: the two ways in which an invocation can end. It is refused before the client runs, and
  then nothing but the operator's output changes; or the client runs, and then its answer decides.
* `Quiet`: steps that neither call the client nor touch the files.
-/

namespace TrustTrial

/-! ## Views of a journal -/

def Event.call? : Event → Option (Request × Reply)
  | .called request reply => some (request, reply)
  | _ => none

def Event.opening? : Event → Option Scenario
  | .began scenario => some scenario
  | _ => none

/-- The calls of the client, in order. -/
def calls (journal : List Event) : List (Request × Reply) := journal.filterMap Event.call?

/-- The scenarios that were started, in order. -/
def openings (journal : List Event) : List Scenario := journal.filterMap Event.opening?

@[simp] theorem openings_append (a b : List Event) : openings (a ++ b) = openings a ++ openings b :=
  List.filterMap_append

namespace Trial

variable {σ α β : Type}

/-! ## Sequences of steps -/

theorem run_bind_ok {x : Trial σ α} {f : α → Trial σ β} {s t : Session σ} {b : β} :
    run (x >>= f) s = (.ok b, t) ↔
      ∃ a u, run x s = (.ok a, u) ∧ run (f a) u = (.ok b, t) := by
  rw [run_bind]
  rcases run x s with ⟨result, u⟩
  cases result with
  | error failure => simp
  | ok a =>
    simp only [Prod.mk.injEq, Except.ok.injEq]
    constructor
    · intro h
      exact ⟨a, u, ⟨rfl, rfl⟩, h⟩
    · rintro ⟨_, _, ⟨rfl, rfl⟩, h⟩
      exact h

theorem run_bind_of_ok {x : Trial σ α} {s u : Session σ} {a : α} (f : α → Trial σ β)
    (h : run x s = (.ok a, u)) : run (x >>= f) s = run (f a) u := by
  rw [run_bind, h]

theorem run_bind_of_error {x : Trial σ α} {s u : Session σ} {failure : Failure}
    (f : α → Trial σ β) (h : run x s = (.error failure, u)) :
    run (x >>= f) s = (.error failure, u) := by
  rw [run_bind, h]

theorem run_pure_ok {a b : α} {s t : Session σ} :
    run (pure a) s = (.ok b, t) ↔ a = b ∧ s = t := by
  simp

theorem run_throw_ok {failure : Failure} {b : α} {s t : Session σ} :
    run (throw failure : Trial σ α) s = (.ok b, t) ↔ False := by
  simp

theorem run_ofExcept_ok {result : Except Failure α} {b : α} {s t : Session σ} :
    run (ofExcept result) s = (.ok b, t) ↔ result = .ok b ∧ s = t := by
  simp

theorem run_inStage_ok {stage : Stage} {result : Except Failure α} {b : α} {s t : Session σ} :
    run (inStage stage result) s = (.ok b, t) ↔ result = .ok b ∧ s = t := by
  cases result with
  | error failure => simp [inStage]
  | ok a => simp [inStage]

theorem run_loadRoot_ok {m : Machine σ} {site : Site} {d : TrustDir} {document : RootDocument}
    {s t : Session σ} :
    run (loadRoot m site d) s = (.ok document, t) ↔
      RootDocument.load s.disk m.here d.path site.repo = .ok document ∧
        t = s.note (.loaded document) := by
  simp only [loadRoot, run_bind_ok, run_look, run_note, run_pure, Prod.mk.injEq, Except.ok.injEq]
  constructor
  · rintro ⟨d, u, ⟨hload, rfl⟩, _, _, ⟨-, rfl⟩, rfl, rfl⟩
    exact ⟨hload, rfl⟩
  · rintro ⟨hload, rfl⟩
    exact ⟨document, s, ⟨hload, rfl⟩, (), _, ⟨trivial, rfl⟩, rfl, rfl⟩

/-! ## Checks -/

theorem capture_eq_ok {d : RootDocument} {state : RootState} :
    RootState.capture d = .ok state ↔
      state.keyCount = d.keyCount ∧ d.trustedKeys rootRole = [state.rootKey] := by
  rcases state with ⟨count, root⟩
  simp only [RootState.capture, RootDocument.singleRootKey]
  rcases d.trustedKeys rootRole with _ | ⟨key, _ | ⟨other, keys⟩⟩ <;> simp [eq_comm]

theorem rotated_eq_ok {before state : RootState} {d : RootDocument} {trusted : List String} :
    RootState.rotated before d trusted = .ok state ↔
      d.keyCount = before.keyCount + 1 ∧ RootState.capture d = .ok state ∧
        state.rootKey ∉ before.rootKey :: trusted := by
  rw [RootState.rotated]
  split
  · rename_i hcount
    simp [hcount]
  · rename_i hcount
    have hcount := Decidable.not_not.1 hcount
    cases RootState.capture d with
    | error failure => simp
    | ok found =>
      simp only [List.contains_iff_mem, List.mem_cons, not_or, Except.ok.injEq]
      constructor
      · intro h
        split at h
        · cases h
        · split at h
          · cases h
          · cases h
            exact ⟨hcount, rfl, ‹_›, ‹_›⟩
      · rintro ⟨-, rfl, hsame, hreused⟩
        rw [if_neg hsame, if_neg hreused]

theorem singleRoot_eq_ok {rows : List KeyRow} {row : KeyRow} :
    KeyListing.singleRoot rows = .ok row ↔ KeyListing.rootRows rows = [row] := by
  rw [KeyListing.singleRoot]
  split
  · rename_i found hfound
    simp [hfound]
  · rename_i hnone
    simpa using fun h => hnone row h

theorem newRootRows_eq (known : List String) (rows : List KeyRow) :
    KeyListing.newRootRows known rows =
      (KeyListing.rootRows rows).filter (fun row => row.line ∉ known) := by
  simp [KeyListing.newRootRows]

theorem newRootRow_eq_ok {history : RootHistory} {rows : List KeyRow} {line : String} :
    newRootRow history rows = .ok line ↔
      ∃ row, KeyListing.newRootRows history.rows rows = [row] ∧ row.line = line := by
  rw [newRootRow]
  rcases KeyListing.newRootRows history.rows rows with _ | ⟨row, _ | ⟨other, found⟩⟩ <;> simp

theorem agreedListing_eq_ok {first second : String} {rows : List TargetRow} :
    agreedListing first second = .ok rows ↔ first = second ∧ TargetListing.read first = rows := by
  rw [agreedListing]
  split
  · rename_i hsame
    simp [hsame]
  · rename_i hsame
    simp [Decidable.not_not.1 hsame]

/-! ## Invocations -/

/-- Why a call cannot be made. -/
inductive Denied (m : Machine σ) (command : String) (request : Request) (disk : Disk.Tree) :
    Failure → Prop where
  | uncaptured {fault : Disk.Fault} :
      captureFault m disk = some fault → Denied m command request disk (.system fault)
  | unstarted {fault : Disk.Fault} :
      captureFault m disk = none → request.refused m.argumentSpace disk = some fault →
      Denied m command request disk (.notStarted command fault)

/-- What an invocation leads to. -/
inductive Invoked (m : Machine σ) (r : Runner) (i : Invocation) (s : Session σ) :
    Except Failure String → Session σ → Prop where
  | refused {failure : Failure} {t : Session σ} :
      Denied m (r.commandLine i) (r.request m i) s.disk failure →
      t.disk = s.disk → t.client = s.client → t.temps = s.temps → t.journal = s.journal →
      Invoked m r i s (.error failure) t
  | answered {reply : Reply} {t : Session σ} :
      captureFault m s.disk = none → (r.request m i).refused m.argumentSpace s.disk = none →
      m.client.run (r.request m i) s.client s.disk = (reply, t.client, t.disk) →
      t.temps = s.temps → t.journal = s.journal ++ [.called (r.request m i) reply] →
      Invoked m r i s
        (Outcome.output ⟨Text.ofBytes reply.stdout, reply.exit⟩ (r.commandLine i)) t

section Refused

variable {q : Request} {space : Nat} {disk : Disk.Tree} {fault : Disk.Fault}

/-- A program that is started is handed no more than it can be. -/
theorem not_oversize (h : q.refused space disk = none) : q.oversize space = false := by
  rw [Request.refused] at h
  split at h
  · cases h
  · split at h
    · cases h
    · rename_i hsize
      exact Bool.eq_false_iff.2 hsize

end Refused

section Calls

variable {m : Machine σ} {command : String} {q : Request} {s : Session σ} {fault : Disk.Fault}

theorem run_call_of_uncaptured (h : captureFault m s.disk = some fault) :
    run (call m command q) s = (.error (.system fault), s) := by
  simp only [run, call, h]

theorem run_call_of_refused (hcapture : captureFault m s.disk = none)
    (h : q.refused m.argumentSpace s.disk = some fault) :
    run (call m command q) s = (.error (.notStarted command fault), s) := by
  simp only [run, call, hcapture, h]

theorem run_call_of_starts (hcapture : captureFault m s.disk = none)
    (h : q.refused m.argumentSpace s.disk = none) :
    let answer := m.client.run q s.client s.disk
    run (call m command q) s =
      (.ok answer.1, Session.note
        { s with
          client := answer.2.1, disk := answer.2.2, stderr := s.stderr ++ answer.1.stderr }
        (.called q answer.1)) := by
  simp only [run, call, hcapture, h]

end Calls

/-- A call: the client answers, unless it cannot be started. -/
theorem run_call (m : Machine σ) (command : String) (request : Request) (s : Session σ) :
    (∃ failure, Denied m command request s.disk failure ∧
      run (call m command request) s = (.error failure, s)) ∨
      captureFault m s.disk = none ∧ request.refused m.argumentSpace s.disk = none ∧
      ∃ reply client disk, m.client.run request s.client s.disk = (reply, client, disk) ∧
        run (call m command request) s =
          (.ok reply, Session.note
            { s with client := client, disk := disk, stderr := s.stderr ++ reply.stderr }
            (.called request reply)) := by
  cases hcapture : captureFault m s.disk with
  | some fault => exact .inl ⟨_, .uncaptured hcapture, run_call_of_uncaptured hcapture⟩
  | none =>
    cases hrefused : request.refused m.argumentSpace s.disk with
    | some fault =>
      exact .inl ⟨_, .unstarted hcapture hrefused, run_call_of_refused hcapture hrefused⟩
    | none => exact .inr ⟨rfl, rfl, _, _, _, rfl, run_call_of_starts hcapture hrefused⟩

theorem run_execute (m : Machine σ) (r : Runner) (i : Invocation) (s : Session σ) :
    run (execute m r i) s =
      match run (call m (r.commandLine i) (r.request m i))
        (if r.echo then (run (say (Text.paint m.colored .dimmed "$" ++ " " ++ r.commandLine i)) s).2
        else s) with
      | (.error failure, t) => (.error failure, t)
      | (.ok reply, t) =>
        let stdout := Text.ofBytes reply.stdout
        let entry : CallRecord :=
          ⟨r.commandLine i, reply.exit, (r.request m i).stdin.size, stdout.utf8ByteSize⟩
        let t := (run (record entry) t).2
        (.ok ⟨stdout, reply.exit⟩, if r.echo then (run (say stdout) t).2 else t) := by
  cases hecho : r.echo
  all_goals
    simp only [execute, hecho, run_bind, if_true, Bool.false_eq_true, if_false, run_say, run_record]
    rcases run (call m (r.commandLine i) (r.request m i)) _ with ⟨failure | reply, t⟩ <;> rfl

/-- A call is made, and its outcome is what the client answers, or it is denied. -/
theorem executed {m : Machine σ} {r : Runner} {i : Invocation} {s t : Session σ}
    {result : Except Failure Outcome} (h : run (execute m r i) s = (result, t)) :
    (∃ failure, result = .error failure ∧
      Denied m (r.commandLine i) (r.request m i) s.disk failure ∧
      t.disk = s.disk ∧ t.client = s.client ∧ t.temps = s.temps ∧ t.journal = s.journal) ∨
    captureFault m s.disk = none ∧ (r.request m i).refused m.argumentSpace s.disk = none ∧
      ∃ reply, result = .ok ⟨Text.ofBytes reply.stdout, reply.exit⟩ ∧
        m.client.run (r.request m i) s.client s.disk = (reply, t.client, t.disk) ∧
        t.temps = s.temps ∧ t.journal = s.journal ++ [.called (r.request m i) reply] := by
  rw [run_execute] at h
  cases hecho : r.echo
  all_goals
    simp only [hecho, if_true, Bool.false_eq_true, if_false] at h
    rcases run_call m (r.commandLine i) (r.request m i) _ with
      ⟨failure, hdenied, hc⟩ | ⟨hcapture, hrefused, reply, c, d, hr, hc⟩
    · rw [hc] at h
      cases h
      exact .inl ⟨failure, rfl, hdenied, rfl, rfl, rfl, rfl⟩
    · rw [hc] at h
      cases h
      exact .inr ⟨hcapture, hrefused, reply, rfl, hr, rfl, rfl⟩

theorem invoked {m : Machine σ} {r : Runner} {i : Invocation} {s t : Session σ}
    {result : Except Failure String} (h : run (invoke m r i) s = (result, t)) :
    Invoked m r i s result t := by
  rcases hexecute : run (execute m r i) s with ⟨outcome, u⟩
  simp only [invoke, run_bind, hexecute] at h
  rcases executed hexecute with ⟨failure, rfl, hdenied, hdisk, hclient, htemps, hjournal⟩ |
    ⟨hcapture, hrefused, reply, rfl, hrun, htemps, hjournal⟩
  · cases h
    exact .refused hdenied hdisk hclient htemps hjournal
  · cases h
    exact .answered hcapture hrefused hrun htemps hjournal

/-- A call that can be started ends as the client answers it. -/
theorem run_invoke_of_starts {m : Machine σ} {r : Runner} {i : Invocation} {s : Session σ}
    {reply : Reply} {c : σ} {disk : Disk.Tree} (hcapture : captureFault m s.disk = none)
    (hrefused : (r.request m i).refused m.argumentSpace s.disk = none)
    (hrun : m.client.run (r.request m i) s.client s.disk = (reply, c, disk)) :
    ∃ t, run (invoke m r i) s =
        (Outcome.output ⟨Text.ofBytes reply.stdout, reply.exit⟩ (r.commandLine i), t) ∧
      t.disk = disk ∧ t.client = c ∧ t.temps = s.temps := by
  have hcall : ∀ u : Session σ, u.disk = s.disk → u.client = s.client → u.temps = s.temps →
      ∃ t, run (call m (r.commandLine i) (r.request m i)) u = (.ok reply, t) ∧
        t.disk = disk ∧ t.client = c ∧ t.temps = s.temps := by
    intro u hdisk hclient htemps
    rw [← hdisk] at hcapture hrefused hrun
    rw [← hclient] at hrun
    rw [run_call_of_starts hcapture hrefused, hrun]
    exact ⟨_, rfl, rfl, rfl, htemps⟩
  simp only [invoke, run_bind, run_execute]
  cases hecho : r.echo with
  | true =>
    obtain ⟨t, hrun, hdisk, hclient, htemps⟩ :=
      hcall (run (say (Text.paint m.colored .dimmed "$" ++ " " ++ r.commandLine i)) s).2 rfl rfl rfl
    simp only [if_true, hrun]
    exact ⟨_, rfl, hdisk, hclient, htemps⟩
  | false =>
    obtain ⟨t, hrun, hdisk, hclient, htemps⟩ := hcall s rfl rfl rfl
    simp only [Bool.false_eq_true, if_false, hrun]
    exact ⟨_, rfl, hdisk, hclient, htemps⟩

/-- A successful invocation is a call that could be made. -/
theorem run_invoke_made {m : Machine σ} {r : Runner} {i : Invocation} {s t : Session σ}
    {output : String} (h : run (invoke m r i) s = (.ok output, t)) :
    captureFault m s.disk = none ∧ (r.request m i).refused m.argumentSpace s.disk = none ∧
      ∃ reply, reply.exit = some 0 ∧ Text.ofBytes reply.stdout = output ∧
        m.client.run (r.request m i) s.client s.disk = (reply, t.client, t.disk) ∧
        t.temps = s.temps ∧ t.journal = s.journal ++ [.called (r.request m i) reply] := by
  have hi := invoked h
  generalize hresult : (Except.ok output : Except Failure String) = result at hi
  cases hi with
  | refused => cases hresult
  | @answered reply _ hcapture hrefused hrun htemps hjournal =>
    simp only [Outcome.output] at hresult
    split at hresult
    · rename_i hexit
      cases hresult
      exact ⟨hcapture, hrefused, reply, of_decide_eq_true hexit, rfl, hrun, htemps, hjournal⟩
    · cases hresult

/-- A successful invocation is a call that ended well. -/
theorem run_invoke_ok {m : Machine σ} {r : Runner} {i : Invocation} {s t : Session σ}
    {output : String} (h : run (invoke m r i) s = (.ok output, t)) :
    ∃ reply, reply.exit = some 0 ∧ Text.ofBytes reply.stdout = output ∧
      m.client.run (r.request m i) s.client s.disk = (reply, t.client, t.disk) ∧
      t.temps = s.temps ∧ t.journal = s.journal ++ [.called (r.request m i) reply] :=
  (run_invoke_made h).2.2

/-! ## Quiet steps -/

/-- The part of a session that calls of the client read or change. -/
structure SameWorld (s t : Session σ) : Prop where
  disk : t.disk = s.disk
  client : t.client = s.client
  temps : t.temps = s.temps
  calls : calls t.journal = calls s.journal
  openings : openings t.journal = openings s.journal

theorem SameWorld.refl (s : Session σ) : SameWorld s s := ⟨rfl, rfl, rfl, rfl, rfl⟩

theorem SameWorld.trans {s t u : Session σ} (h₁ : SameWorld s t) (h₂ : SameWorld t u) :
    SameWorld s u :=
  ⟨h₂.disk.trans h₁.disk, h₂.client.trans h₁.client, h₂.temps.trans h₁.temps,
    h₂.calls.trans h₁.calls, h₂.openings.trans h₁.openings⟩

/-- A step that calls nothing and leaves the files alone. -/
def Quiet (x : Trial σ α) : Prop := ∀ s, SameWorld s (run x s).2

theorem quiet_pure (a : α) : Quiet (pure a : Trial σ α) := fun s => .refl s

theorem quiet_ofExcept (result : Except Failure α) : Quiet (ofExcept result : Trial σ α) :=
  fun s => .refl s

theorem quiet_inStage (stage : Stage) (result : Except Failure α) :
    Quiet (inStage stage result : Trial σ α) := fun s => .refl s

theorem quiet_look (f : Disk.Tree → Except Failure α) : Quiet (look f : Trial σ α) :=
  fun s => .refl s

theorem quiet_say (line : String) : Quiet (say line : Trial σ Unit) :=
  fun _ => ⟨rfl, rfl, rfl, rfl, rfl⟩

theorem quiet_note {e : Event} (hcall : e.call? = none) (hopening : e.opening? = none) :
    Quiet (note e : Trial σ Unit) := by
  refine fun s => ⟨rfl, rfl, rfl, ?_, ?_⟩
  · simp [Session.note, TrustTrial.calls, hcall]
  · simp [Session.note, TrustTrial.openings, hopening]

theorem Quiet.bind {x : Trial σ α} {f : α → Trial σ β} (hx : Quiet x) (hf : ∀ a, Quiet (f a)) :
    Quiet (x >>= f) := by
  intro s
  have h := hx s
  rw [run_bind]
  rcases hrun : run x s with ⟨result, t⟩
  rw [hrun] at h
  cases result with
  | error failure => exact h
  | ok a => exact h.trans (hf a t)

theorem quiet_announce (m : Machine σ) (title : String) : Quiet (announce m title) := quiet_say _

theorem quiet_enter (stage : Stage) : Quiet (enter stage : Trial σ Unit) := quiet_note rfl rfl

theorem quiet_loadRoot (m : Machine σ) (site : Site) (d : TrustDir) :
    Quiet (loadRoot m site d) :=
  (quiet_look _).bind fun _ => (quiet_note rfl rfl).bind fun _ => quiet_pure _

end Trial
end TrustTrial
