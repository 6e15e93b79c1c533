import TrustTrial.Proofs.Waiting

/-!
# TrustTrial.Proofs.Patience

Two waits side by side. If the second one is eased in every respect, by its settings and by what
the server answers, it is never behind the first one: its probes start no later and its streak is no
shorter (`Eases.start_le`, `Eases.successes_le`). So it succeeds whenever the first one does, with
no more probes (`course_eased`).
-/

namespace TrustTrial
namespace Readiness

variable {first second : ReadinessSettings} {old new : Health} {i n : Nat}

/-- The second wait has at least the time of the first one, needs no more successes, pauses and
waits for answers no longer, and fails no probe that does not fail in the first one as well. -/
structure Eases (first second : ReadinessSettings) (old new : Health) : Prop where
  timeout : first.timeout ≤ second.timeout
  required : second.requiredSuccesses ≤ first.requiredSuccesses
  retry : second.retryInterval ≤ first.retryInterval
  latency : ∀ i, new.latency i ≤ old.latency i
  healthy : ∀ i, old.healthy i = true → new.healthy i = true

theorem milliseconds_mono {a b : Nat} (h : a ≤ b) : milliseconds a ≤ milliseconds b :=
  Nat.mul_le_mul_left 1000 h

theorem Eases.pause_le (h : Eases first second old new) (i : Nat) :
    (if new.healthy i then 0 else milliseconds second.retryInterval) ≤
      if old.healthy i then 0 else milliseconds first.retryInterval := by
  cases hold : old.healthy i with
  | true =>
    rw [h.healthy i hold]
    exact Nat.le_refl _
  | false =>
    cases new.healthy i with
    | true => exact Nat.zero_le _
    | false => exact milliseconds_mono h.retry

theorem Eases.start_le (h : Eases first second old new) (i : Nat) :
    start second new i ≤ start first old i := by
  induction i with
  | zero => exact Nat.le_refl 0
  | succ i ih =>
    rw [start_succ, start_succ]
    exact Nat.add_le_add (Nat.add_le_add ih (h.latency i)) (h.pause_le i)

theorem Eases.successes_le (h : Eases first second old new) (i : Nat) :
    successes old i ≤ successes new i := by
  induction i with
  | zero => exact Nat.le_refl 0
  | succ i ih =>
    rw [successes_succ, successes_succ]
    cases hold : old.healthy i with
    | true =>
      rw [h.healthy i hold]
      exact Nat.succ_le_succ ih
    | false => exact Nat.zero_le _

/-- The streak is complete with the same probe at the latest. -/
theorem Eases.exists_firstReady (h : Eases first second old new)
    (hready : FirstReady first old n) : ∃ k ≤ n, FirstReady second new k := by
  apply Readiness.exists_firstReady
  calc second.requiredSuccesses
    _ ≤ first.requiredSuccesses := h.required
    _ ≤ successes old (n + 1) := hready.streak
    _ ≤ successes new (n + 1) := h.successes_le (n + 1)

theorem length_askedUpTo (settings : ReadinessSettings) (server : ServerChoice) (health : Health)
    (k : Nat) : (askedUpTo settings server health k).length = k := by
  simp [askedUpTo]

theorem getLast?_askedUpTo (settings : ReadinessSettings) (server : ServerChoice)
    (health : Health) (k : Nat) :
    (askedUpTo settings server health (k + 1)).getLast? =
      some (start settings health k, target settings server) := by
  simp [askedUpTo, List.range_succ]

/-- A wait that is eased succeeds if the other one does, with no more probes, and its last probe
starts no later. -/
theorem course_eased (h : Eases first second old new) {server other : ServerChoice} {c : Course}
    (hc : course first server old = some c) (hok : c.result = .ok ()) :
    ∃ d, course second other new = some d ∧ d.result = .ok () ∧
      d.asked.length ≤ c.asked.length ∧
      ∃ last last', c.asked.getLast? = some last ∧ d.asked.getLast? = some last' ∧
        last'.1 ≤ last.1 := by
  obtain ⟨n, hready, htime⟩ := course_ok_iff.1 ⟨c, hc, hok⟩
  rw [course_ready (hready.undecided htime) htime hready.streak] at hc
  cases hc
  obtain ⟨k, hk, hready'⟩ := h.exists_firstReady hready
  have hstart : start second new k ≤ start first old n :=
    calc start second new k
      _ ≤ start second new n := start_mono hk
      _ ≤ start first old n := h.start_le n
  have htime' : start second new k ≤ milliseconds second.timeout :=
    calc start second new k
      _ ≤ start first old n := hstart
      _ ≤ milliseconds first.timeout := htime
      _ ≤ milliseconds second.timeout := milliseconds_mono h.timeout
  refine ⟨_, course_ready (hready'.undecided htime') htime' hready'.streak, rfl, ?_, _, _,
    getLast?_askedUpTo _ _ _ _, getLast?_askedUpTo _ _ _ _, hstart⟩
  rw [length_askedUpTo, length_askedUpTo]
  exact Nat.succ_le_succ hk

/-- The default settings with a shorter pause. -/
def brisk : ReadinessSettings := { ReadinessSettings.default with retryInterval := 2 }

/-- A server that answers sooner than `unsteady` and fails the same probe. -/
def quick : Health := ⟨unsteady.healthy, fun _ => 1⟩

theorem eases_brisk : Eases .default brisk unsteady quick where
  timeout := Nat.le_refl _
  required := Nat.le_refl _
  retry := by decide
  latency _ := show 1 ≤ 5 by decide
  healthy _ h := h

theorem course_eased_brisk :
    Eases .default brisk unsteady quick ∧
      ∃ d, course brisk (.remote "http://b") quick = some d ∧ d.result = .ok () ∧
        d.asked.length ≤ 4 ∧ ∃ last, d.asked.getLast? = some last ∧ last.1 ≤ 11015 := by
  have hready := firstReady_unsteady
  have htime : start .default unsteady 3 ≤ milliseconds ReadinessSettings.default.timeout := by
    decide
  have hc : course .default .embedded unsteady = some
      ⟨askedUpTo .default .embedded unsteady 4, 41020, .ok ()⟩ :=
    course_ready (hready.undecided htime) htime hready.streak
  obtain ⟨d, hd, hok, hlength, last, last', hlast, hlast', hle⟩ :
      ∃ d, course brisk (.remote "http://b") quick = some d ∧ _ :=
    course_eased eases_brisk hc rfl
  rw [length_askedUpTo] at hlength
  rw [getLast?_askedUpTo] at hlast
  cases hlast
  exact ⟨eases_brisk, d, hd, hok, hlength, last', hlast', hle⟩

end Readiness
end TrustTrial
