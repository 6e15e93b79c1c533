import TrustTrial.Proofs.Entries
import TrustTrial.Proofs.Trace

/-!
# TrustTrial.Proofs.CleanUp

What a trial leaves behind, and which failure it reports. The client may do what it likes with the
trust directory of a call, and may take payloads away; nothing else is touched (`Confined`).

`Kempt` is the invariant: everything but the entries is as it was at the start, and every entry has
a status that says what may stand in its place. Set-ups, calls and clean-ups move statuses only as
far as `between` and `busy` say.
-/

namespace TrustTrial
namespace Trial

open Disk

variable {σ α : Type}

/-- A client that leaves alone what is not at or below the trust directory of the call, except that
payloads may go. -/
def Confined (m : Machine σ) (r : Runner) (count : Nat) (dir : Location) : Prop :=
  ∀ i c disk reply c' disk' home, m.client.run (r.request m i) c disk = (reply, c', disk') →
    disk.locate m.here i.trustDir = .ok home → ∀ place, ¬home <+: place →
      disk'.find? place = disk.find? place ∨
        disk'.find? place = none ∧ ∃ k, 2 * k + 1 < count ∧ place = entryPlace m dir (2 * k + 1)

/-! ## Statuses -/

/-- What may stand in a place. -/
inductive Status where
  | anything
  | noDirectory
  | nothing

def Status.Holds : Status → Option Node → Prop
  | .anything, _ => True
  | .noDirectory, node => node ≠ some .directory
  | .nothing, node => node = none

theorem Status.holds_none (status : Status) : status.Holds none := by
  cases status <;> simp [Holds]

/-- The entries between scenarios, when `k` of them are over: only the primary identity may be
there, and files that have taken the place of secondary ones. -/
def between (k n : Nat) : Status :=
  if n = 0 then .anything else if 2 * k + 1 ≤ n ∨ n % 2 = 1 then .nothing else .noDirectory

/-- The entries during scenario number `k`. -/
def busy (k n : Nat) : Status :=
  if n = 2 * k + 2 then .anything else if n = 2 * k + 1 then .noDirectory else between k n

/-- Apart from entries the tree is that of the start, and entries are as their statuses say. -/
structure Kempt (m : Machine σ) (count : Nat) (dir : Location) (disk : Tree)
    (status : Nat → Status) (t : Tree) : Prop where
  elsewhere : ∀ place, (∀ n < count, ¬entryPlace m dir n <+: place) →
    t.find? place = disk.find? place
  entries : ∀ n < count, (status n).Holds (t.find? (entryPlace m dir n))

section Kempt

variable {m : Machine σ} {r : Runner} {count n k : Nat} {dir : Location} {disk t : Tree}
  {status status' : Nat → Status}

theorem Kempt.kept (h : Kempt m count dir disk status t) (room : Room m count dir disk) :
    Kept disk t := by
  intro place hplace
  rw [h.elsewhere place fun n hn => room.not_prefix hn hplace]
  exact hplace

theorem Kempt.start (room : Room m count dir disk) :
    Kempt m count dir disk (fun _ => .nothing) disk :=
  ⟨fun _ _ => rfl, fun n hn => room.free n hn _ List.prefix_rfl⟩

theorem Kempt.put (h : Kempt m count dir disk status t) (room : Room m count dir disk)
    (hn : n < count) {node : Node} (hnode : (status' n).Holds (some node))
    (hstatus : ∀ i < count, i ≠ n → status' i = status i) :
    Kempt m count dir disk status' (t.put (entryPlace m dir n) node) := by
  constructor
  · intro place hplace
    rw [Tree.find?_put t (entryPlace_ne_nil m dir n), if_neg, h.elsewhere place hplace]
    rintro rfl
    exact hplace n hn List.prefix_rfl
  · intro i hi
    rw [room.find?_put hn hi]
    by_cases hin : i = n
    · rw [if_pos hin, hin]
      exact hnode
    · rw [if_neg hin, hstatus i hi hin]
      exact h.entries i hi

theorem Kempt.remove (h : Kempt m count dir disk status t) (room : Room m count dir disk)
    (hn : n < count) (hstatus : ∀ i < count, i ≠ n → status' i = status i) :
    Kempt m count dir disk status' (t.remove (entryPlace m dir n)) := by
  constructor
  · intro place hplace
    rw [Tree.find?_remove t (entryPlace_ne_nil m dir n), if_neg, h.elsewhere place hplace]
    rw [List.isPrefixOf_iff_prefix]
    exact hplace n hn
  · intro i hi
    rw [room.find?_remove hn hi]
    by_cases hin : i = n
    · rw [if_pos hin]
      exact (status' i).holds_none
    · rw [if_neg hin, hstatus i hi hin]
      exact h.entries i hi

/-- Nothing is done; the entry number `n` is found to be as its new status says. -/
theorem Kempt.settle (h : Kempt m count dir disk status t)
    (hnode : (status' n).Holds (t.find? (entryPlace m dir n)))
    (hstatus : ∀ i < count, i ≠ n → status' i = status i) :
    Kempt m count dir disk status' t := by
  refine ⟨h.elsewhere, fun i hi => ?_⟩
  by_cases hin : i = n
  · rw [hin]
    exact hnode
  · rw [hstatus i hi hin]
    exact h.entries i hi

/-- A call keeps everything, if anything may stand where its trust directory is. -/
theorem Kempt.call (h : Kempt m count dir disk status t) (room : Room m count dir disk)
    (confined : Confined m r count dir) (hn : n < count) (hstatus : status n = .anything)
    {i : Invocation} (hi : i.trustDir = entry m n) {c c' : σ} {reply : Reply} {t' : Tree}
    (hrun : m.client.run (r.request m i) c t = (reply, c', t')) :
    Kempt m count dir disk status t' := by
  have hhome : t.locate m.here i.trustDir = .ok (entryPlace m dir n) := by
    rw [hi]
    exact room.locate_entry (h.kept room) hn
  have hchange := confined i c t reply c' t' _ hrun hhome
  constructor
  · intro place hplace
    obtain hsame | ⟨-, k, hk, rfl⟩ := hchange place (hplace n hn)
    · rw [hsame, h.elsewhere place hplace]
    · exact (hplace _ hk List.prefix_rfl).elim
  · intro j hj
    by_cases hjn : j = n
    · rw [hjn, hstatus]
      trivial
    · have hout : ¬entryPlace m dir n <+: entryPlace m dir j := by
        rw [room.place_inj hn hj]
        exact fun e => hjn e.symm
      obtain hsame | ⟨hgone, -⟩ := hchange _ hout
      · rw [hsame]
        exact h.entries j hj
      · rw [hgone]
        exact (status j).holds_none

end Kempt

/-! ## Parts of a trial -/

/-- Whether a regular file stands where the identity was. -/
def blocked (m : Machine σ) (d : TrustDir) (disk : Tree) : Bool :=
  match disk.look m.here d.path with
  | .ok (.file _ _) => true
  | _ => false

/-- What the removal of an identity comes to. -/
def removal (m : Machine σ) (d : TrustDir) (disk : Tree) : Except Failure Unit :=
  if blocked m d disk then .error (.system (.at d.path .notDirectory)) else .ok ()

section Parts

variable {m : Machine σ} {r : Runner} {count n k : Nat} {dir : Location} {disk : Tree}
  {status : Nat → Status} {s : Session σ}

theorem run_remove_entry (status' : Nat → Status) (room : Room m count dir disk)
    (h : Kempt m count dir disk status s.disk)
    (hn : n < count) (label : String) (hsettled : status' n = .noDirectory)
    (hstatus : ∀ i < count, i ≠ n → status' i = status i) :
    ∃ t, run (TrustDir.remove m ⟨label, entry m n⟩) s =
        (removal m ⟨label, entry m n⟩ s.disk, t) ∧
      SameTalk s t ∧ Kempt m count dir disk status' t.disk := by
  have hkept := h.kept room
  simp only [TrustDir.remove, run_clear, room.removeDirectory_entry hkept hn, removal, blocked,
    room.look_entry hkept hn]
  cases hnode : s.disk.find? (entryPlace m dir n) with
  | none =>
    refine ⟨s, rfl, .refl s, h.settle ?_ hstatus⟩
    rw [hnode]
    exact Status.holds_none _
  | some node =>
    cases node with
    | directory => exact ⟨_, rfl, ⟨rfl, rfl, rfl⟩, h.remove room hn hstatus⟩
    | file data executable =>
      refine ⟨s, rfl, .refl s, h.settle ?_ hstatus⟩
      rw [hnode, hsettled]
      exact nofun

theorem run_removePayload_entry (status' : Nat → Status) (room : Room m count dir disk)
    (h : Kempt m count dir disk status s.disk) (hn : n < count) (hfile : status n = .noDirectory)
    (hstatus : ∀ i < count, i ≠ n → status' i = status i) :
    ∃ t, run (removePayload m (entry m n)) s = (.ok (), t) ∧ SameTalk s t ∧
      Kempt m count dir disk status' t.disk ∧
      ∀ i < count, i ≠ n →
        t.disk.find? (entryPlace m dir i) = s.disk.find? (entryPlace m dir i) := by
  have hentry := h.entries n hn
  rw [hfile] at hentry
  simp only [removePayload, run_clear, room.removeFile_entry (h.kept room) hn]
  cases hnode : s.disk.find? (entryPlace m dir n) with
  | none =>
    refine ⟨s, rfl, .refl s, h.settle ?_ hstatus, fun _ _ _ => rfl⟩
    rw [hnode]
    exact Status.holds_none _
  | some node =>
    cases node with
    | directory => exact absurd hnode hentry
    | file data executable =>
      refine ⟨_, rfl, ⟨rfl, rfl, rfl⟩, h.remove room hn hstatus, fun i hi hin => ?_⟩
      rw [room.find?_remove hn hi, if_neg hin]

theorem run_makeTemp_entry (status' : Nat → Status) (node : Node) (room : Room m count dir disk)
    (h : Kempt m count dir disk status s.disk) (hn : s.temps < count)
    (hnone : status s.temps = .nothing) (hnode : (status' s.temps).Holds (some node))
    (hstatus : ∀ i < count, i ≠ s.temps → status' i = status i) :
    ∃ t, run (makeTemp m (entryEnding s.temps) node) s = (.ok (entry m s.temps), t) ∧
      t.client = s.client ∧ t.journal = s.journal ∧ t.temps = s.temps + 1 ∧
      Kempt m count dir disk status' t.disk := by
  have hentry := h.entries s.temps hn
  rw [hnone] at hentry
  have hcreate := room.create_entry (h.kept room) hn hentry node
  rw [← entryPath_eq_entry] at hcreate
  exact ⟨_, run_makeTemp_of_ok hcreate, rfl, rfl, rfl, h.put room hn hnode hstatus⟩

/-- The primary identity can be made. -/
theorem run_primary_entry (room : Room m count dir disk) (c : σ) (hcount : 0 < count) :
    ∃ t, run (TrustDir.primary m) (Session.start disk c) = (.ok (primaryOf m), t) ∧
      t.client = c ∧ t.journal = [] ∧ t.temps = 1 ∧
      Kempt m count dir disk (between 0) t.disk := by
  have hstart : Kempt m count dir disk (fun _ => .nothing) (Session.start disk c).disk :=
    .start room
  have hlater : ∀ i < count, i ≠ 0 → between 0 i = .nothing := by
    intro i _ hi
    rw [between, if_neg hi, if_pos (.inl (by omega))]
  obtain ⟨t, hrun, hclient, hjournal, htemps, hkempt⟩ :=
    run_makeTemp_entry (between 0) .directory room hstart hcount rfl trivial hlater
  refine ⟨t, ?_, hclient, hjournal, htemps, hkempt⟩
  simp only [TrustDir.primary, run_create, String.reduceAppend]
  rw [show "_main" = entryEnding (Session.start disk c).temps from rfl, hrun]
  rfl

theorem between_succ {i : Nat} (hsecondary : i ≠ 2 * k + 2) :
    between (k + 1) i = between k i := by
  have hiff : (2 * (k + 1) + 1 ≤ i ∨ i % 2 = 1) ↔ (2 * k + 1 ≤ i ∨ i % 2 = 1) := by omega
  simp only [between, hiff]

/-- A scenario can be set up. -/
theorem run_setUp_entry (scenario : Scenario) (room : Room m count dir disk)
    (h : Kempt m count dir disk (between k) s.disk) (hk : 2 * k + 2 < count)
    (htemps : s.temps = 2 * k + 1) :
    ∃ t, run (setUp m scenario) s = (.ok (standOf m k), t) ∧ t.client = s.client ∧
      t.journal = s.journal ∧ t.temps = 2 * k + 3 ∧ Kempt m count dir disk (busy k) t.disk := by
  have hpayload : between k s.temps = .nothing := by
    rw [between, if_neg (by omega), if_pos (.inl (by omega))]
  obtain ⟨t, hrun, hclient, hjournal, ht, hkempt⟩ :=
    run_makeTemp_entry (fun i => if i = 2 * k + 1 then .noDirectory else between k i)
      (.file scenario.name.toUTF8 false) room h (by omega) hpayload
      (by rw [if_pos htemps]; exact nofun) (fun i _ hi => if_neg (htemps ▸ hi))
  have hnext : t.temps = 2 * k + 2 := by rw [ht, htemps]
  have hsecondary : (if t.temps = 2 * k + 1 then Status.noDirectory else between k t.temps) =
      .nothing := by
    rw [if_neg (by omega), between, if_neg (by omega), if_pos (.inl (by omega))]
  obtain ⟨u, hrun', hclient', hjournal', hu, hkempt'⟩ :=
    run_makeTemp_entry (busy k) .directory room hkempt (by omega) hsecondary
      (by rw [hnext, busy, if_pos rfl]; trivial)
      (fun i _ hi => by rw [busy, if_neg (hnext ▸ hi)])
  refine ⟨u, ?_, hclient'.trans hclient, hjournal'.trans hjournal, by rw [hu, hnext], hkempt'⟩
  rw [htemps, entryEnding_payload] at hrun
  rw [hnext, entryEnding_secondary] at hrun'
  rw [run_setUp, writePayload, hrun]
  simp only [TrustDir.secondary, run_create, String.reduceAppend, hrun', standOf_eq]

/-- The clean-up of a scenario succeeds unless a file has taken the place of the secondary
identity. -/
theorem run_cleanUp_entry (room : Room m count dir disk)
    (h : Kempt m count dir disk (busy k) s.disk) (hk : 2 * k + 2 < count) :
    ∃ t, run (cleanUp m (standOf m k)) s = (removal m (standOf m k).secondary s.disk, t) ∧
      SameTalk s t ∧ Kempt m count dir disk (between (k + 1)) t.disk := by
  have hfile : busy k (2 * k + 1) = .noDirectory := by
    rw [busy, if_neg (by omega), if_pos rfl]
  obtain ⟨t, hrun, htalk, hkempt, hothers⟩ :=
    run_removePayload_entry (fun i => if i = 2 * k + 2 then .anything else between (k + 1) i)
      room h (by omega) hfile (fun i _ hi => by
        by_cases hsecondary : i = 2 * k + 2
        · rw [if_pos hsecondary, busy, if_pos hsecondary]
        · rw [if_neg hsecondary, busy, if_neg hsecondary, if_neg hi, between_succ hsecondary])
  have hsettled : between (k + 1) (2 * k + 2) = .noDirectory := by
    rw [between, if_neg (by omega), if_neg (by omega)]
  obtain ⟨u, hrun', htalk', hkempt'⟩ :=
    run_remove_entry (between (k + 1)) room hkempt hk "temp" hsettled
      (fun i _ hi => (if_neg hi).symm)
  have hremoval : removal m ⟨"temp", entry m (2 * k + 2)⟩ t.disk =
      removal m ⟨"temp", entry m (2 * k + 2)⟩ s.disk := by
    simp only [removal, blocked, room.look_entry (hkempt.kept room) hk,
      room.look_entry (h.kept room) hk, hothers (2 * k + 2) hk (by omega)]
  refine ⟨u, ?_, htalk.trans htalk', hkempt'⟩
  simp only [run_cleanUp, standOf_eq, hrun, hrun', hremoval]

theorem script_trustDir {repo : String} {primary : TrustDir} {stand : Stand} {scenario : Scenario} :
    ∀ i ∈ scenario.script repo primary stand,
      i.trustDir = primary.path ∨ i.trustDir = stand.secondary.path := by
  cases scenario <;>
    simp [Scenario.script, rotationScript, TrustDir.invocation, Invocation.new,
      Invocation.withPayload, Invocation.withoutCredentials]

/-- A body keeps the statuses that its scenario has set up. -/
theorem run_body_entry (repo : String) (history : RootHistory) (scenario : Scenario)
    (room : Room m count dir disk) (confined : Confined m r count dir)
    (h : Kempt m count dir disk (busy k) s.disk) (hk : 2 * k + 2 < count) :
    let t := (run (body m ⟨r, repo, primaryOf m⟩ (standOf m k) history scenario) s).2
    Kempt m count dir disk (busy k) t.disk ∧ openings t.journal = openings s.journal ∧
      t.temps = s.temps := by
  refine (scripted_body m ⟨r, repo, primaryOf m⟩ (standOf m k) history scenario).preserves
    (I := fun t => Kempt m count dir disk (busy k) t.disk ∧
      openings t.journal = openings s.journal ∧ t.temps = s.temps) ?_ ?_ s ⟨h, rfl, rfl⟩
  · rintro t u hsame ⟨hkempt, hopen, htemps⟩
    exact ⟨hsame.disk ▸ hkempt, hsame.openings.trans hopen, hsame.temps.trans htemps⟩
  · rintro i hi t u reply ⟨hkempt, hopen, htemps⟩ hanswer hu hjournal
    refine ⟨?_, ?_, hu.trans htemps⟩
    · rcases script_trustDir i hi with hdir | hdir
      · have hprimary : busy k 0 = .anything := by
          rw [busy, if_neg (by omega), if_neg (by omega), between, if_pos rfl]
        exact hkempt.call room confined (by omega) hprimary hdir hanswer
      · rw [standOf_eq] at hdir
        exact hkempt.call room confined hk (by rw [busy, if_pos rfl]) hdir hanswer
    · rw [hjournal, openings_append, hopen]
      exact List.append_nil _

end Parts

/-! ## Whole trials -/

/-- How scenarios are played one after the other: from a history and a session, which of them are
started, which failure there is, and the session at the end. A failure of a body comes first. If
there is none, the removal of the secondary identity counts, and after a failure nothing more is
started. -/
inductive Played (m : Machine σ) (site : Site) :
    RootHistory → List Scenario → Session σ → List Scenario → Option Failure → Session σ →
      Prop where
  | nil {history : RootHistory} {s : Session σ} : Played m site history [] s [] none s
  | failed {history : RootHistory} {scenario : Scenario} {scenarios : List Scenario}
      {s t u : Session σ} {stand : Stand} {failure : Failure} :
      run (setUp m scenario) (opened m scenario s) = (.ok stand, t) →
      run (body m site stand history scenario) t = (.error failure, u) →
      Played m site history (scenario :: scenarios) s [scenario] (some failure)
        (reported m scenario failure (run (cleanUp m stand) u).2)
  | blocked {history history' : RootHistory} {scenario : Scenario} {scenarios : List Scenario}
      {s t u : Session σ} {stand : Stand} {failure : Failure} :
      run (setUp m scenario) (opened m scenario s) = (.ok stand, t) →
      run (body m site stand history scenario) t = (.ok history', u) →
      removal m stand.secondary u.disk = .error failure →
      Played m site history (scenario :: scenarios) s [scenario] (some failure)
        (reported m scenario failure (run (cleanUp m stand) u).2)
  | passed {history history' : RootHistory} {scenario : Scenario}
      {scenarios started : List Scenario} {s t u v : Session σ} {stand : Stand}
      {failure : Option Failure} :
      run (setUp m scenario) (opened m scenario s) = (.ok stand, t) →
      run (body m site stand history scenario) t = (.ok history', u) →
      removal m stand.secondary u.disk = .ok () →
      Played m site history' scenarios (passed m (run (cleanUp m stand) u).2) started failure v →
      Played m site history (scenario :: scenarios) s (scenario :: started) failure v

/-- What a trial comes to: the failure of its scenarios counts before that of the last removal. -/
def verdict (scenarios : List Scenario) : Option Failure → Except Failure Unit →
    Except Failure (List Scenario)
  | some failure, _ => .error failure
  | none, .error failure => .error failure
  | none, .ok _ => .ok scenarios

section Trials

variable {m : Machine σ} {r : Runner} {count k : Nat} {dir : Location} {disk t : Tree}

theorem Kempt.mono {k' : Nat} (h : Kempt m count dir disk (between k) t) (hk : k ≤ k') :
    Kempt m count dir disk (between k') t := by
  refine ⟨h.elsewhere, fun n hn => ?_⟩
  have hentry := h.entries n hn
  simp only [between] at hentry ⊢
  by_cases hzero : n = 0
  · rw [if_pos hzero]
    trivial
  · rw [if_neg hzero] at hentry ⊢
    by_cases hnothing : 2 * k + 1 ≤ n ∨ n % 2 = 1
    · rw [if_pos hnothing] at hentry
      rw [hentry]
      exact Status.holds_none _
    · rw [if_neg hnothing] at hentry
      rw [if_neg (by omega)]
      exact hentry

theorem runEach_played (repo : String) (room : Room m count dir disk)
    (confined : Confined m r count dir) (history : RootHistory)
    (before scenarios : List Scenario) (s : Session σ)
    (hcount : 2 * (k + scenarios.length) < count) (htemps : s.temps = 2 * k + 1)
    (h : Kempt m count dir disk (between k) s.disk) :
    ∃ started failure t, Played m ⟨r, repo, primaryOf m⟩ history scenarios s started failure t ∧
      run (runEach m ⟨r, repo, primaryOf m⟩ history before scenarios) s =
        (match failure with
          | none => .ok (before ++ scenarios)
          | some failure => .error failure, t) ∧
      openings t.journal = openings s.journal ++ started ∧
      Kempt m count dir disk (between (k + scenarios.length)) t.disk := by
  induction scenarios generalizing history before k s with
  | nil => exact ⟨[], none, s, .nil, by rw [run_runEach_nil, List.append_nil], by simp, h⟩
  | cons scenario scenarios ih =>
    rw [List.length_cons] at hcount ⊢
    obtain ⟨t, hset, -, hjournal, ht, hbusy⟩ :=
      run_setUp_entry (s := opened m scenario s) scenario room h (by omega) htemps
    obtain ⟨hkempt, hopen, hu⟩ :=
      run_body_entry repo history scenario room confined hbusy (by omega)
    rcases hbody : run (body m ⟨r, repo, primaryOf m⟩ (standOf m k) history scenario) t
      with ⟨ended, u⟩
    simp only [hbody] at hkempt hopen hu
    obtain ⟨v, hclean, htalk, hdone⟩ := run_cleanUp_entry room hkempt (by omega)
    have hv : openings v.journal = openings s.journal ++ [scenario] := by
      rw [htalk.journal, hopen, hjournal]
      simp [openings, Event.opening?]
    rw [run_runEach_cons, run_runScenario]
    simp only [hset, hbody, hclean]
    cases ended with
    | error failure =>
      refine ⟨[scenario], some failure, _, .failed hset hbody, ?_, ?_, ?_⟩
      · simp only [hclean]
      · simp only [hclean, reported_journal, hv]
      · simp only [hclean, reported_disk]
        exact hdone.mono (by omega)
    | ok history' =>
      cases hremoval : removal m (standOf m k).secondary u.disk with
      | error failure =>
        refine ⟨[scenario], some failure, _, .blocked hset hbody hremoval, ?_, ?_, ?_⟩
        · simp only [hclean]
        · simp only [hclean, reported_journal, hv]
        · simp only [hclean, reported_disk]
          exact hdone.mono (by omega)
      | ok _ =>
        have hnext : (passed m v).temps = 2 * (k + 1) + 1 := by
          rw [(sameTalk_passed m v).temps, htalk.temps, hu, ht]
          omega
        obtain ⟨started, failure, w, hplayed, hrun, hw, hlast⟩ :=
          ih (k := k + 1) history' (before ++ [scenario]) (passed m v) (by omega) hnext hdone
        rw [List.append_assoc, List.singleton_append] at hrun
        refine ⟨scenario :: started, failure, w, .passed hset hbody hremoval ?_, hrun, ?_, ?_⟩
        · simpa only [hclean] using hplayed
        · rw [hw, (sameTalk_passed m v).journal, hv, List.append_assoc]
          rfl
        · rw [show k + (scenarios.length + 1) = k + 1 + scenarios.length by omega]
          exact hlast

end Trials

/-- A trial cleans up on every way out, if the client confines itself to trust directories and
payloads. At the end the files are those of the start; of the entries no payload is left, and in the
place of an identity there is nothing, or the regular file that the client has put there. The trial
fails with the first failure of its scenarios, or else with that of the removal of the primary
identity, and a removal fails exactly if such a file is in the way. -/
theorem runAll_cleans_up {m : Machine σ} {r : Runner} {repo : String} {scenarios : List Scenario}
    {dir : Location} {disk : Tree} {c : σ} {result : Except Failure (List Scenario)}
    {t : Session σ} (room : Room m (2 * scenarios.length + 1) dir disk)
    (confined : Confined m r (2 * scenarios.length + 1) dir)
    (h : run (runAll m r repo scenarios) (Session.start disk c) = (result, t)) :
    (∃ s started failure u,
      run (TrustDir.primary m) (Session.start disk c) = (.ok (primaryOf m), s) ∧
      Played m ⟨r, repo, primaryOf m⟩ .empty scenarios s started failure u ∧
      openings t.journal = started ∧
      result = verdict scenarios failure (removal m (primaryOf m) u.disk)) ∧
    (∀ place, (∀ n < 2 * scenarios.length + 1, ¬entryPlace m dir n <+: place) →
      t.disk.find? place = disk.find? place) ∧
    t.disk.find? (entryPlace m dir 0) ≠ some .directory ∧
    ∀ k < scenarios.length,
      t.disk.find? (entryPlace m dir (2 * k + 1)) = none ∧
        t.disk.find? (entryPlace m dir (2 * k + 2)) ≠ some .directory := by
  obtain ⟨s, hprimary, -, hjournal, htemps, hstart⟩ := run_primary_entry room c (by omega)
  obtain ⟨started, failure, u, hplayed, hrun, hopen, hkempt⟩ :=
    runEach_played repo room confined .empty [] scenarios s (by omega) htemps hstart
  let last := fun n => if n = 0 then Status.noDirectory else between (0 + scenarios.length) n
  obtain ⟨v, hclean, htalk, hlast⟩ :=
    run_remove_entry last room hkempt (by omega) "main" rfl (fun i _ hi => if_neg hi)
  rw [← primaryOf_eq] at hclean
  rw [run_runAll, hprimary] at h
  simp only [hrun, hclean] at h
  have hend : v = t ∧ result = verdict scenarios failure (removal m (primaryOf m) u.disk) := by
    cases failure <;> cases hremoval : removal m (primaryOf m) u.disk
    all_goals
      rw [hremoval] at h
      cases h
      exact ⟨rfl, rfl⟩
  obtain ⟨rfl, hresult⟩ := hend
  refine ⟨⟨s, started, failure, u, hprimary, hplayed, ?_, hresult⟩, hlast.elsewhere,
    hlast.entries 0 (by omega), fun k hk => ⟨?_, ?_⟩⟩
  · rw [htalk.journal, hopen, hjournal]
    rfl
  · have hpayload := hlast.entries (2 * k + 1) (by omega)
    simp only [last, between] at hpayload
    rw [if_neg (by omega), if_neg (by omega), if_pos (.inr (by omega))] at hpayload
    exact hpayload
  · have hsecondary := hlast.entries (2 * k + 2) (by omega)
    simp only [last, between] at hsecondary
    rw [if_neg (by omega), if_neg (by omega), if_neg (by omega)] at hsecondary
    exact hsecondary

/-- A client that puts a file in the place of every trust directory. -/
def squatter : Client Unit where
  run q c disk :=
    match disk.locate q.here (q.args.getD 4 "") with
    | .ok (name :: names) =>
      (⟨.empty, "", some 0⟩, c, disk.put (name :: names) (.file .empty false))
    | _ => (⟨.empty, "", some 0⟩, c, disk)

/-- The surroundings of that client. -/
def squatted : Machine Unit := (Main.machine "sample").withClient squatter

theorem confined_squatter (count : Nat) (dir : Location) :
    Confined squatted sampleRunner count dir := by
  intro i c disk reply c' disk' home hrun hhome place hplace
  have hargs : (sampleRunner.request squatted i).args.getD 4 "" = i.trustDir := rfl
  have hhere : (sampleRunner.request squatted i).here = squatted.here := rfl
  change squatter.run _ c disk = _ at hrun
  simp only [squatter, hargs, hhere, hhome] at hrun
  left
  cases home with
  | nil => exact absurd List.nil_prefix hplace
  | cons name names =>
    cases hrun
    rw [Tree.find?_put disk (List.cons_ne_nil _ _), if_neg]
    rintro rfl
    exact hplace List.prefix_rfl

theorem room_squatted : Room squatted 3 ["tmp"] Main.disk where
  found := rfl
  directory := rfl
  plain := by
    intro n hn
    have h : n = 0 ∨ n = 1 ∨ n = 2 := by omega
    rcases h with rfl | rfl | rfl <;>
      exact ⟨by decide +kernel, by decide +kernel, by decide +kernel, by decide +kernel,
        by decide +kernel⟩
  fits := by decide +kernel
  distinct := by decide +kernel
  free := by
    rintro n hn _ ⟨rest, rfl⟩
    simp [entryPlace, Tree.find?, findNode, Main.disk]

theorem runAll_cleans_up_squatter :
    let t := (run (runAll squatted sampleRunner "sample" [.basicRepo])
      (Session.start Main.disk ())).2
    t.disk.find? (entryPlace squatted ["tmp"] 0) ≠ some .directory ∧
      t.disk.find? (entryPlace squatted ["tmp"] 1) = none ∧
      t.disk.find? (entryPlace squatted ["tmp"] 2) ≠ some .directory := by
  rcases h : run (runAll squatted sampleRunner "sample" [.basicRepo]) (Session.start Main.disk ())
    with ⟨result, t⟩
  obtain ⟨-, -, hprimary, hscenarios⟩ :=
    runAll_cleans_up room_squatted (confined_squatter 3 ["tmp"]) h
  obtain ⟨hpayload, hsecondary⟩ := hscenarios 0 (by decide)
  exact ⟨hprimary, hpayload, hsecondary⟩

end Trial
end TrustTrial
