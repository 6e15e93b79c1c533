import TrustTrial.Proofs.Patience

/-!
# TrustTrial.Proofs.Setbacks

How many probes a wait makes, if a failed probe is followed by a pause. Every failure costs the time
of a pause, so the timeout bounds the failures (`setbacks_le`). Before each failure there are fewer
successes in a row than the streak needs, since a complete streak ends the wait
(`le_setbacks_mul`). The two bound the probes that decide nothing, and so a probe that decides is
found in time: the wait ends (`course_bounded`).
-/

namespace TrustTrial
namespace Readiness

variable {settings : ReadinessSettings} {server : ServerChoice} {health : Health} {i k : Nat}

/-! ## Failures -/

/-- How many of the first `i` probes fail. -/
def setbacks (health : Health) : Nat → Nat
  | 0 => 0
  | i + 1 => if health.healthy i then setbacks health i else setbacks health i + 1

theorem setbacks_succ (health : Health) (i : Nat) : setbacks health (i + 1) =
    if health.healthy i then setbacks health i else setbacks health i + 1 := rfl

/-- Every failure so far has been followed by a pause. -/
theorem setbacks_mul_le_start (settings : ReadinessSettings) (health : Health) (i : Nat) :
    setbacks health i * milliseconds settings.retryInterval ≤ start settings health i := by
  induction i with
  | zero => simp [setbacks]
  | succ i ih =>
    rw [setbacks_succ, start_succ]
    cases health.healthy i with
    | true =>
      simp only [if_true]
      omega
    | false =>
      simp only [Bool.false_eq_true, if_false, Nat.succ_mul]
      omega

/-- As long as there is time, there have been no more failures than pauses fit into it. -/
theorem setbacks_le (hretry : 0 < settings.retryInterval)
    (htime : start settings health i ≤ milliseconds settings.timeout) :
    setbacks health i ≤ settings.timeout / settings.retryInterval := by
  rw [Nat.le_div_iff_mul_le hretry]
  have hpauses : 1000 * (setbacks health i * settings.retryInterval) ≤ 1000 * settings.timeout :=
    calc 1000 * (setbacks health i * settings.retryInterval)
      _ = setbacks health i * milliseconds settings.retryInterval := Nat.mul_left_comm _ _ _
      _ ≤ start settings health i := setbacks_mul_le_start settings health i
      _ ≤ 1000 * settings.timeout := htime
  exact Nat.le_of_mul_le_mul_left hpauses (by decide)

/-! ## Probes -/

theorem successes_lt (hq : 0 < settings.requiredSuccesses)
    (h : ∀ i < k, Undecided settings health i) :
    successes health k < settings.requiredSuccesses := by
  cases k with
  | zero => exact hq
  | succ k => exact (h k (Nat.lt_succ_self k)).short

/-- Each failure stands for itself and the successes before it, which did not complete the streak;
the successes after the last failure are left over. -/
theorem le_setbacks_mul (hq : 0 < settings.requiredSuccesses)
    (h : ∀ i < k, Undecided settings health i) :
    k ≤ setbacks health k * settings.requiredSuccesses + successes health k := by
  induction k with
  | zero => exact Nat.zero_le _
  | succ k ih =>
    have hbefore : ∀ i < k, Undecided settings health i := fun i hi => h i (Nat.lt_succ_of_lt hi)
    have hcount := ih hbefore
    have hshort := successes_lt hq hbefore
    rw [setbacks_succ, successes_succ]
    cases health.healthy k with
    | true =>
      simp only [if_true]
      omega
    | false =>
      simp only [Bool.false_eq_true, if_false, Nat.succ_mul]
      omega

/-- If the first `k` probes decide nothing and there is time for one more, that one is within the
bound. -/
theorem probes_le (hretry : 0 < settings.retryInterval) (hq : 0 < settings.requiredSuccesses)
    (h : ∀ i < k, Undecided settings health i)
    (htime : start settings health k ≤ milliseconds settings.timeout) :
    k + 1 ≤ (settings.timeout / settings.retryInterval + 1) * settings.requiredSuccesses := by
  have hshort := successes_lt hq h
  calc k + 1
    _ ≤ setbacks health k * settings.requiredSuccesses + successes health k + 1 :=
      Nat.succ_le_succ (le_setbacks_mul hq h)
    _ ≤ setbacks health k * settings.requiredSuccesses + settings.requiredSuccesses :=
      Nat.add_le_add_left hshort _
    _ = (setbacks health k + 1) * settings.requiredSuccesses := (Nat.succ_mul _ _).symm
    _ ≤ (settings.timeout / settings.retryInterval + 1) * settings.requiredSuccesses :=
      Nat.mul_le_mul_right _ (Nat.succ_le_succ (setbacks_le hretry htime))

/-- Probes cannot go on without deciding anything. -/
theorem not_undecided (hretry : 0 < settings.retryInterval)
    (hq : 0 < settings.requiredSuccesses) : ¬∀ i, Undecided settings health i := by
  intro h
  have hbound := probes_le hretry hq
    (k := (settings.timeout / settings.retryInterval + 1) * settings.requiredSuccesses)
    (fun i _ => h i) (h _).intime
  omega

/-- If failed probes are followed by a pause and some success is required, a wait ends, whatever
the server answers and however soon. The probes it has made are at most as many as the pauses that
fit into the timeout and one more, times the successes that are required. -/
theorem course_bounded (settings : ReadinessSettings) (server : ServerChoice) (health : Health)
    (hretry : 1 ≤ settings.retryInterval) (hq : 1 ≤ settings.requiredSuccesses) :
    ∃ c, course settings server health = some c ∧ c.asked.length ≤
      (settings.timeout / settings.retryInterval + 1) * settings.requiredSuccesses := by
  obtain hnever | ⟨n, hready, htime⟩ | ⟨m, hbefore, hlate⟩ := decided_cases settings health
  · exact absurd hnever (not_undecided hretry hq)
  · refine ⟨_, course_ready (hready.undecided htime) htime hready.streak, ?_⟩
    rw [length_askedUpTo]
    exact probes_le hretry hq (hready.undecided htime) htime
  · refine ⟨_, course_late hbefore hlate, ?_⟩
    rw [length_askedUpTo]
    cases m with
    | zero => exact Nat.zero_le _
    | succ k =>
      -- The probe before the one that comes too late was in time.
      exact probes_le hretry hq (fun i hi => hbefore i (Nat.lt_succ_of_lt hi))
        (hbefore k (Nat.lt_succ_self k)).intime

/-- A server that answers at once and fails every second probe. -/
def flickering : Health := ⟨fun i => i % 2 = 0, fun _ => 0⟩

/-- The default settings with little time and a short pause. -/
def pressed : ReadinessSettings :=
  { ReadinessSettings.default with timeout := 2, retryInterval := 1 }

theorem course_bounded_flickering :
    ∃ c, course pressed .embedded flickering = some c ∧ c.asked.length ≤ (2 / 1 + 1) * 2 :=
  course_bounded pressed .embedded flickering (by decide) (by decide)

/-- The bound is attained: all six probes are made, and the seventh would be late. -/
example : (∀ i < 6, start pressed flickering i ≤ milliseconds pressed.timeout ∧
    successes flickering (i + 1) < pressed.requiredSuccesses) ∧
    milliseconds pressed.timeout < start pressed flickering 6 := by decide

end Readiness
end TrustTrial
