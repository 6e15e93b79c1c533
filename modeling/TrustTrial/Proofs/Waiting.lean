import Mathlib.Order.Nat
import TrustTrial.Readiness

/-!
# TrustTrial.Proofs.Waiting

What a wait comes to, told from the outcomes and the latencies of its probes alone.

`start` says when a probe starts if the wait comes to it, and `Unbroken` which successes are in a
row. The turns of a wait keep to both (`turn_standing`, `Reached.eq_standing`), and the first probe
that completes the streak or would start too late ends it (`course_exact`). A wait for which there
is no such probe goes on for ever (`course_eq_none_iff`).
-/

namespace TrustTrial
namespace Readiness

variable {settings : ReadinessSettings} {server : ServerChoice} {health : Health}
  {i j k m n fuel : Nat} {report : Report}

/-! ## Starts and streaks -/

/-- When probe `i` starts, if the wait comes to it. -/
def start (settings : ReadinessSettings) (health : Health) : Nat → Nat
  | 0 => 0
  | i + 1 =>
    start settings health i + health.latency i +
      if health.healthy i then 0 else milliseconds settings.retryInterval

theorem start_succ (settings : ReadinessSettings) (health : Health) (i : Nat) :
    start settings health (i + 1) = start settings health i + health.latency i +
      if health.healthy i then 0 else milliseconds settings.retryInterval := rfl

theorem start_mono (h : i ≤ j) : start settings health i ≤ start settings health j := by
  induction h with
  | refl => exact Nat.le_refl _
  | step _ ih =>
    rw [start_succ]
    omega

/-- The last `k` probes up to probe `i` succeed. -/
structure Unbroken (health : Health) (k i : Nat) : Prop where
  length_le : k ≤ i + 1
  healthy : ∀ j ≤ i, i < j + k → health.healthy j = true

/-- The successes in a row that the first `i` probes end with. -/
def successes (health : Health) : Nat → Nat
  | 0 => 0
  | i + 1 => if health.healthy i then successes health i + 1 else 0

theorem successes_succ (health : Health) (i : Nat) : successes health (i + 1) =
    if health.healthy i then successes health i + 1 else 0 := rfl

theorem unbroken_zero : Unbroken health 0 i := ⟨Nat.zero_le _, fun _ _ _ => by omega⟩

theorem unbroken_first : Unbroken health (k + 1) 0 ↔ k = 0 ∧ health.healthy 0 = true := by
  constructor
  · intro h
    have hk : k = 0 := by have := h.length_le; omega
    exact ⟨hk, h.healthy 0 (Nat.le_refl 0) (by omega)⟩
  · rintro ⟨rfl, h⟩
    refine ⟨Nat.le_refl _, fun j hj _ => ?_⟩
    rwa [Nat.le_zero.1 hj]

theorem unbroken_succ :
    Unbroken health (k + 1) (i + 1) ↔ health.healthy (i + 1) = true ∧ Unbroken health k i := by
  constructor
  · intro h
    refine ⟨h.healthy (i + 1) (Nat.le_refl _) (by omega), ?_, fun j hj hk => ?_⟩
    · have := h.length_le
      omega
    · exact h.healthy j (by omega) (by omega)
  · rintro ⟨hlast, h⟩
    refine ⟨by have := h.length_le; omega, fun j hj hk => ?_⟩
    by_cases hji : j = i + 1
    · rwa [hji]
    · exact h.healthy j (by omega) (by omega)

theorem unbroken_iff : Unbroken health k i ↔ k ≤ successes health (i + 1) := by
  induction i generalizing k with
  | zero =>
    cases k with
    | zero => simp [unbroken_zero]
    | succ k =>
      rw [unbroken_first, successes_succ, successes]
      cases health.healthy 0 <;> simp
  | succ i ih =>
    cases k with
    | zero => simp [unbroken_zero]
    | succ k =>
      rw [unbroken_succ, ih, successes_succ health (i + 1)]
      cases health.healthy (i + 1) <;> simp

/-- The count of successes is the length of the longest run that ends there. -/
theorem isGreatest_successes : IsGreatest {k | Unbroken health k i} (successes health (i + 1)) :=
  ⟨unbroken_iff.2 (Nat.le_refl _), fun _ hk => unbroken_iff.1 hk⟩

/-- The first probe that completes a streak of the required length. -/
def FirstReady (settings : ReadinessSettings) (health : Health) (n : Nat) : Prop :=
  IsLeast {n | Unbroken health settings.requiredSuccesses n} n

/-- The first probe that would start after the timeout. -/
def FirstLate (settings : ReadinessSettings) (health : Health) (m : Nat) : Prop :=
  IsLeast {m | milliseconds settings.timeout < start settings health m} m

/-! ## Turns -/

/-- How a wait stands before probe `i`. -/
def standing (settings : ReadinessSettings) (health : Health) (i : Nat) : Watch :=
  ⟨i, start settings health i, ⟨settings.requiredSuccesses, successes health i⟩⟩

theorem turn_standing :
    (standing settings health i).turn settings health =
      if milliseconds settings.timeout < start settings health i then .late
      else if settings.requiredSuccesses ≤ successes health (i + 1) then
        .ready ⟨i + 1, start settings health i + health.latency i,
          ⟨settings.requiredSuccesses, successes health (i + 1)⟩⟩
      else .again (standing settings health (i + 1)) := by
  by_cases htime : milliseconds settings.timeout < start settings health i
  · rw [if_pos htime]
    exact if_pos htime
  rw [if_neg htime]
  refine (if_neg htime).trans ?_
  by_cases hready : settings.requiredSuccesses ≤ successes health (i + 1)
  · rw [if_pos hready]
    exact if_pos (decide_eq_true hready)
  · rw [if_neg hready]
    refine (if_neg (Bool.eq_false_iff.1 (decide_eq_false hready))).trans ?_
    -- Only the pause depends on how the probe ended.
    cases hhealthy : health.healthy i with
    | true =>
      refine (if_pos hhealthy).trans ?_
      simp [standing, start_succ, successes_succ, Streak.record, hhealthy]
    | false =>
      refine (if_neg (Bool.eq_false_iff.1 hhealthy)).trans ?_
      simp [standing, start_succ, successes_succ, Streak.record, hhealthy]

/-- What a wait comes to stand at, turn after turn. -/
inductive Reached (settings : ReadinessSettings) (health : Health) : Watch → Prop where
  | start : Reached settings health (.start settings)
  | again {w next : Watch} : Reached settings health w → w.turn settings health = .again next →
      Reached settings health next

theorem Reached.eq_standing {w : Watch} (h : Reached settings health w) :
    w = standing settings health w.made := by
  induction h with
  | start => rfl
  | @again w next _ hturn ih =>
    rw [ih, turn_standing] at hturn
    split at hturn
    · cases hturn
    · split at hturn
      · cases hturn
      · cases hturn
        rfl

/-- As long as a wait goes on, its streak is too short. -/
theorem Reached.count_lt {w : Watch} (h : Reached settings health w)
    (hq : 0 < settings.requiredSuccesses) : w.streak.count < settings.requiredSuccesses := by
  cases h with
  | start => exact hq
  | @again v _ hv hturn =>
    rw [hv.eq_standing, turn_standing] at hturn
    split at hturn
    · cases hturn
    · split at hturn
      · cases hturn
      · rename_i hshort
        cases hturn
        exact Nat.lt_of_not_le hshort

theorem successes_succ_le : successes health (i + 1) ≤ successes health i + 1 := by
  rw [successes_succ]
  split
  · exact Nat.le_refl _
  · exact Nat.zero_le _

/-- The streak after a probe. -/
theorem Reached.count_after {w after : Watch} (h : Reached settings health w)
    (hturn : w.turn settings health = .again after ∨ w.turn settings health = .ready after) :
    after.streak.count = successes health (w.made + 1) := by
  rw [h.eq_standing, turn_standing] at hturn
  split at hturn
  · simp at hturn
  · split at hturn
    · rcases hturn with hturn | hturn
      · cases hturn
      · cases hturn
        rfl
    · rcases hturn with hturn | hturn
      · cases hturn
        rfl
      · cases hturn

/-! ## Waits -/

/-- Probe `i` is made in time and leaves the streak too short. -/
structure Undecided (settings : ReadinessSettings) (health : Health) (i : Nat) : Prop where
  intime : start settings health i ≤ milliseconds settings.timeout
  short : successes health (i + 1) < settings.requiredSuccesses

/-- The starts of the first `k` probes. -/
def starts (settings : ReadinessSettings) (health : Health) (k : Nat) : List Nat :=
  (List.range k).map (start settings health)

theorem starts_succ : starts settings health (k + 1) =
    starts settings health k ++ [start settings health k] := by
  simp [starts, List.range_succ]

/-- Probes that decide nothing lead on to the next one. -/
theorem probe_add (h : ∀ i < k, Undecided settings health i) :
    probe settings health (fuel + k) =
      (probeFrom settings health fuel (standing settings health k)).map
        (fun report => { report with starts := starts settings health k ++ report.starts }) := by
  induction k generalizing fuel with
  | zero =>
    rw [probe, show Watch.start settings = standing settings health 0 from rfl]
    simp [starts]
  | succ k ih =>
    have hk := h k (Nat.lt_succ_self k)
    rw [Nat.add_succ, ← Nat.succ_add, ih (fun i hi => h i (Nat.lt_succ_of_lt hi)), probeFrom,
      turn_standing, if_neg (Nat.not_lt.2 hk.intime), if_neg (Nat.not_le.2 hk.short)]
    dsimp only
    cases probeFrom settings health fuel (standing settings health (k + 1)) with
    | none => rfl
    | some report => simp [starts_succ, standing]

theorem probe_ready (h : ∀ i < n, Undecided settings health i)
    (htime : start settings health n ≤ milliseconds settings.timeout)
    (hstreak : settings.requiredSuccesses ≤ successes health (n + 1)) :
    probe settings health (1 + n) = some
      ⟨starts settings health (n + 1),
        start settings health n + health.latency n + milliseconds settings.gracePeriod, true⟩ := by
  rw [probe_add h, probeFrom, turn_standing, if_neg (Nat.not_lt.2 htime), if_pos hstreak,
    starts_succ]
  rfl

theorem probe_late (h : ∀ i < m, Undecided settings health i)
    (htime : milliseconds settings.timeout < start settings health m) :
    probe settings health (1 + m) = some
      ⟨starts settings health m, start settings health m, false⟩ := by
  rw [probe_add h, probeFrom, turn_standing, if_pos htime]
  simp [standing]

theorem probe_undecided (h : ∀ i, Undecided settings health i) (fuel : Nat) :
    probe settings health fuel = none := by
  rw [← Nat.zero_add fuel, probe_add fun i _ => h i]
  rfl

/-! ## Fuel -/

theorem probeFrom_mono {w : Watch} (h : probeFrom settings health fuel w = some report) :
    probeFrom settings health (fuel + 1) w = some report := by
  induction fuel generalizing w report with
  | zero => cases h
  | succ fuel ih =>
    rw [probeFrom] at h ⊢
    cases hturn : w.turn settings health with
    | late => rwa [hturn] at h
    | ready answered => rwa [hturn] at h
    | again next =>
      rw [hturn] at h
      dsimp only at h ⊢
      cases hnext : probeFrom settings health fuel next with
      | none =>
        rw [hnext] at h
        cases h
      | some rest =>
        rw [hnext] at h
        rw [ih hnext]
        exact h

theorem probe_mono {more : Nat} (h : probe settings health fuel = some report)
    (hle : fuel ≤ more) : probe settings health more = some report := by
  induction hle with
  | refl => exact h
  | step _ ih => exact probeFrom_mono ih

/-- If some fuel is enough, the search for it ends. -/
theorem wellFounded_retried (h : probe settings health n = some report) :
    WellFounded (Retried settings health) := by
  have hless : ∀ {more fuel : Nat}, Retried settings health more fuel → n - more < n - fuel := by
    rintro more fuel ⟨hnone, rfl⟩
    have hfuel : fuel < n := by
      refine Nat.lt_of_not_le fun hle => ?_
      rw [probe_mono h hle] at hnone
      cases hnone
    omega
  exact Subrelation.wf hless (measure fun fuel => n - fuel).wf

theorem probe_fuelFrom (h : probe settings health n = some report) (fuel : Nat) :
    probe settings health (fuelFrom settings health fuel) ≠ none := by
  induction fuel using (wellFounded_retried h).induction with
  | _ fuel ih =>
    rw [fuelFrom, WellFounded.extrinsicFix_eq_apply (wellFounded_retried h)]
    split
    · rename_i hnone
      exact ih _ ⟨hnone, rfl⟩
    · rename_i hsome
      exact hsome

theorem probe_enough (h : probe settings health fuel = some report) :
    probe settings health (enough settings health) = some report := by
  obtain ⟨found, hfound⟩ := Option.ne_none_iff_exists'.1 (probe_fuelFrom h (ample settings))
  rw [enough, hfound]
  -- Of two amounts with which the wait ends the larger one gives both reports.
  rw [← probe_mono hfound (Nat.le_max_left _ fuel), ← probe_mono h (Nat.le_max_right _ fuel)]

/-! ## Courses -/

/-- What the first `k` probes ask, and when. -/
def askedUpTo (settings : ReadinessSettings) (server : ServerChoice) (health : Health)
    (k : Nat) : List (Nat × String) :=
  (List.range k).map (fun i => (start settings health i, target settings server))

theorem course_of_probe (h : probe settings health fuel = some report) :
    course settings server health = some (report.course settings server) := by
  rw [course, probe_enough h]
  rfl

theorem course_ready (h : ∀ i < n, Undecided settings health i)
    (htime : start settings health n ≤ milliseconds settings.timeout)
    (hstreak : settings.requiredSuccesses ≤ successes health (n + 1)) :
    course settings server health = some
      ⟨askedUpTo settings server health (n + 1),
        start settings health n + health.latency n + milliseconds settings.gracePeriod,
        .ok ()⟩ := by
  rw [course_of_probe (probe_ready h htime hstreak)]
  simp [Report.course, starts, askedUpTo]

theorem course_late (h : ∀ i < m, Undecided settings health i)
    (htime : milliseconds settings.timeout < start settings health m) :
    course settings server health = some
      ⟨askedUpTo settings server health m, start settings health m,
        .error (failure settings server)⟩ := by
  rw [course_of_probe (probe_late h htime)]
  simp [Report.course, starts, askedUpTo]

theorem course_undecided (h : ∀ i, Undecided settings health i) :
    course settings server health = none := by
  rw [course, probe_undecided h]
  rfl

/-! ## The first probe that decides -/

theorem FirstReady.streak (h : FirstReady settings health n) :
    settings.requiredSuccesses ≤ successes health (n + 1) := unbroken_iff.1 h.1

theorem FirstReady.undecided (h : FirstReady settings health n)
    (htime : start settings health n ≤ milliseconds settings.timeout) :
    ∀ i < n, Undecided settings health i := by
  refine fun i hi => ⟨Nat.le_trans (start_mono (Nat.le_of_lt hi)) htime, ?_⟩
  exact Nat.lt_of_not_le fun hready => Nat.not_lt.2 (h.2 (unbroken_iff.2 hready)) hi

/-- A complete streak has been completed by some probe for the first time. -/
theorem exists_firstReady (hstreak : settings.requiredSuccesses ≤ successes health (n + 1)) :
    ∃ k ≤ n, FirstReady settings health k := by
  classical
  have hex : ∃ k, Unbroken health settings.requiredSuccesses k := ⟨n, unbroken_iff.2 hstreak⟩
  exact ⟨Nat.find hex, Nat.find_min' hex (unbroken_iff.2 hstreak), Nat.isLeast_find hex⟩

theorem FirstLate.undecided (h : FirstLate settings health m)
    (hready : ∀ n, FirstReady settings health n → m ≤ n) :
    ∀ i < m, Undecided settings health i := by
  refine fun i hi => ⟨Nat.le_of_not_lt fun hlate => Nat.not_lt.2 (h.2 hlate) hi, ?_⟩
  refine Nat.lt_of_not_le fun hstreak => ?_
  obtain ⟨k, hk, hfirst⟩ := exists_firstReady hstreak
  have := hready k hfirst
  omega

theorem firstReady_of_undecided (h : ∀ i < n, Undecided settings health i)
    (hstreak : settings.requiredSuccesses ≤ successes health (n + 1)) :
    FirstReady settings health n := by
  refine ⟨unbroken_iff.2 hstreak, fun k hk => Nat.le_of_not_lt fun hkn => ?_⟩
  exact Nat.not_lt.2 (unbroken_iff.1 hk) (h k hkn).short

/-- No probe decides a wait, or the first that does completes the streak in time, or it would start
too late. -/
theorem decided_cases (settings : ReadinessSettings) (health : Health) :
    (∀ i, Undecided settings health i) ∨
      (∃ n, FirstReady settings health n ∧
        start settings health n ≤ milliseconds settings.timeout) ∨
      ∃ m, (∀ i < m, Undecided settings health i) ∧
        milliseconds settings.timeout < start settings health m := by
  classical
  by_cases h : ∃ n, ¬Undecided settings health n
  · have hbefore : ∀ i < Nat.find h, Undecided settings health i :=
      fun i hi => Decidable.not_not.1 (Nat.find_min h hi)
    by_cases htime : start settings health (Nat.find h) ≤ milliseconds settings.timeout
    · have hstreak : settings.requiredSuccesses ≤ successes health (Nat.find h + 1) :=
        Nat.le_of_not_lt fun hshort => Nat.find_spec h ⟨htime, hshort⟩
      exact .inr (.inl ⟨_, firstReady_of_undecided hbefore hstreak, htime⟩)
    · exact .inr (.inr ⟨_, hbefore, Nat.lt_of_not_le htime⟩)
  · exact .inl fun i => Decidable.not_not.1 fun hi => h ⟨i, hi⟩

/-- A wait succeeds exactly if a streak is complete with a probe that starts in time. -/
theorem course_ok_iff :
    (∃ c, course settings server health = some c ∧ c.result = .ok ()) ↔
      ∃ n, FirstReady settings health n ∧
        start settings health n ≤ milliseconds settings.timeout := by
  constructor
  · rintro ⟨c, hc, hok⟩
    obtain hnever | hready | ⟨m, hbefore, hlate⟩ := decided_cases settings health
    · rw [course_undecided hnever] at hc
      cases hc
    · exact hready
    · rw [course_late hbefore hlate] at hc
      cases hc
      cases hok
  · rintro ⟨n, hready, htime⟩
    exact ⟨_, course_ready (hready.undecided htime) htime hready.streak, rfl⟩

/-- A wait has no course exactly if none of its probes decides it. -/
theorem course_eq_none_iff :
    course settings server health = none ↔ ∀ i, Undecided settings health i := by
  refine ⟨fun hnone => ?_, course_undecided⟩
  obtain hnever | ⟨n, hready, htime⟩ | ⟨m, hbefore, hlate⟩ := decided_cases settings health
  · exact hnever
  · rw [course_ready (hready.undecided htime) htime hready.streak] at hnone
    cases hnone
  · rw [course_late hbefore hlate] at hnone
    cases hnone

/-- A wait ends well with the first probe that completes the streak, if that starts in time, and
after the grace period; and it is given up when the first probe comes that would start too late, if
the streak is not complete before. Its probes start when those before them and their pauses are
over, and all ask one address. After each of them the streak is the longest run of successes up to
it, which never grows beyond what is required. -/
theorem course_exact (hq : 0 < settings.requiredSuccesses) :
    ((∃ c, course settings server health = some c ∧ c.result = .ok ()) ↔
        ∃ n, FirstReady settings health n ∧
          start settings health n ≤ milliseconds settings.timeout) ∧
      (∀ n, FirstReady settings health n →
        start settings health n ≤ milliseconds settings.timeout →
          course settings server health = some
            ⟨askedUpTo settings server health (n + 1),
              start settings health n + health.latency n + milliseconds settings.gracePeriod,
              .ok ()⟩) ∧
      (∀ m, FirstLate settings health m → (∀ n, FirstReady settings health n → m ≤ n) →
        course settings server health = some
          ⟨askedUpTo settings server health m, start settings health m,
            .error (.unreachable (serverName settings server) settings.timeout)⟩) ∧
      ∀ w after, Reached settings health w →
        w.turn settings health = .again after ∨ w.turn settings health = .ready after →
          IsGreatest {k | Unbroken health k w.made} after.streak.count ∧
            after.streak.count ≤ settings.requiredSuccesses := by
  refine ⟨course_ok_iff, fun n hready htime => ?_, fun m hlate hready => ?_,
    fun w after hw hturn => ?_⟩
  · exact course_ready (hready.undecided htime) htime hready.streak
  · exact course_late (hlate.undecided hready) hlate.1
  · have hcount := hw.count_after hturn
    have hstep : successes health (w.made + 1) ≤ w.streak.count + 1 := by
      rw [hw.eq_standing]
      exact successes_succ_le
    rw [hcount]
    exact ⟨isGreatest_successes, Nat.le_trans hstep (hw.count_lt hq)⟩

/-- A server that answers in 5 milliseconds and fails only its second probe. -/
def unsteady : Health := ⟨fun i => i ≠ 1, fun _ => 5⟩

theorem firstReady_unsteady : FirstReady .default unsteady 3 := by
  refine ⟨unbroken_iff.2 (by decide), fun k hk => Nat.le_of_not_lt fun hlt => ?_⟩
  exact (by decide : ∀ k < 3, ¬2 ≤ successes unsteady (k + 1)) k hlt (unbroken_iff.1 hk)

/-- The default settings with little time. -/
def hurried : ReadinessSettings := { ReadinessSettings.default with timeout := 10 }

theorem firstLate_hurried : FirstLate hurried unsteady 2 := by
  refine ⟨show milliseconds 10 < start hurried unsteady 2 by decide, fun k hk =>
    Nat.le_of_not_lt fun hlt => ?_⟩
  exact (by decide : ∀ k < 2, ¬milliseconds 10 < start hurried unsteady k) k hlt hk

theorem course_exact_unsteady :
    course .default .embedded unsteady = some
        ⟨[0, 5, 11010, 11015].map (·, "http://server:4443/_notary_server/health"), 41020,
          .ok ()⟩ ∧
      course hurried (.remote "http://a") unsteady = some
        ⟨[(0, "http://a"), (5, "http://a")], 11010, .error (.unreachable "http://a" 10)⟩ := by
  constructor
  · have hrequired : 0 < ReadinessSettings.default.requiredSuccesses := by decide
    have hcourse : course .default .embedded unsteady = some _ :=
      (course_exact hrequired).2.1 3 firstReady_unsteady (by decide)
    rwa [show askedUpTo .default .embedded unsteady (3 + 1) = [0, 5, 11010, 11015].map
      (·, "http://server:4443/_notary_server/health") by decide +kernel] at hcourse
  · have hrequired : 0 < hurried.requiredSuccesses := by decide
    exact (course_exact hrequired).2.2.1 2 firstLate_hurried fun n hn =>
      Nat.le_trans (by decide) (firstReady_unsteady.2 hn.1)

end Readiness
end TrustTrial
