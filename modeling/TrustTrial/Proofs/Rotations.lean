import TrustTrial.Proofs.Trace

/-!
# TrustTrial.Proofs.Rotations

What a passing trial says about root keys. Two views of a journal are enough to judge it: the root
documents that were loaded, and the root rows that the client printed when it listed keys.

* `Yields`: what a step that succeeds adds to both views, with one rule for each kind of step.
* `Turn`: a rotation with what it was judged by; `Turn.Sound` is the judgement, made against the
  history of the trial.
* `Covers`: the history holds all that was seen before. It is the invariant from scenario to
  scenario, and turns a judgement against the history into one against the journal.
-/

namespace TrustTrial

/-! ## Views of a journal -/

def Event.document? : Event → Option RootDocument
  | .loaded document => some document
  | _ => none

/-- The root documents that were loaded, in order. -/
def documents (journal : List Event) : List RootDocument := journal.filterMap Event.document?

@[simp] theorem documents_append (a b : List Event) :
    documents (a ++ b) = documents a ++ documents b := List.filterMap_append

@[simp] theorem documents_began (scenario : Scenario) (events : List Event) :
    documents (.began scenario :: events) = documents events := rfl

/-- The root rows of a key table. -/
def KeyListing.rootLines (rows : List KeyRow) : List String := (rootRows rows).map KeyRow.line

/-- The root rows that a call printed, if it was made to list keys. -/
def Event.rootTable? (r : Runner) : Event → Option (List String)
  | .called request reply =>
    if r.words request = ["key", "list"] then
      some (KeyListing.rootLines (KeyListing.read (Text.ofBytes reply.stdout)))
    else none
  | _ => none

/-- The root rows that were printed, call by call. -/
def rootTables (r : Runner) (journal : List Event) : List (List String) :=
  journal.filterMap (Event.rootTable? r)

@[simp] theorem rootTables_append (r : Runner) (a b : List Event) :
    rootTables r (a ++ b) = rootTables r a ++ rootTables r b := List.filterMap_append

@[simp] theorem rootTables_began (r : Runner) (scenario : Scenario) (events : List Event) :
    rootTables r (.began scenario :: events) = rootTables r events := rfl

namespace Trial

variable {σ α β : Type} {m : Machine σ} {r : Runner} {site : Site} {stand : Stand}

/-! ## What steps add -/

/-- A step that succeeds starts no scenario, and adds documents and tables as `Q` says. -/
def Yields (r : Runner) (x : Trial σ α)
    (Q : α → List RootDocument → List (List String) → Prop) : Prop :=
  ∀ s t a, run x s = (.ok a, t) →
    ∃ events, t.journal = s.journal ++ events ∧ openings events = [] ∧
      Q a (documents events) (rootTables r events)

/-- A step that adds neither documents nor tables. -/
def Silent (r : Runner) (x : Trial σ α) : Prop :=
  Yields r x fun _ docs tables => docs = [] ∧ tables = []

namespace Yields

variable {x : Trial σ α} {f : α → Trial σ β}
  {P : α → List RootDocument → List (List String) → Prop}
  {Q : β → List RootDocument → List (List String) → Prop}

theorem bind (hx : Yields r x P)
    (hf : ∀ a docs tables, P a docs tables →
      Yields r (f a) fun b more new => Q b (docs ++ more) (tables ++ new)) :
    Yields r (x >>= f) Q := by
  intro s t b h
  obtain ⟨a, u, ha, hb⟩ := run_bind_ok.1 h
  obtain ⟨first, hfirst, hopen, hP⟩ := hx s u a ha
  obtain ⟨second, hsecond, hopen', hQ⟩ := hf a _ _ hP u t b hb
  refine ⟨first ++ second, ?_, ?_, ?_⟩
  · rw [hsecond, hfirst, List.append_assoc]
  · rw [openings_append, hopen, hopen', List.append_nil]
  · rw [documents_append, rootTables_append]
    exact hQ

theorem pure {b : β} (h : Q b [] []) : Yields r (pure b : Trial σ β) Q := by
  rintro s t _ ⟨⟩
  exact ⟨[], by simp, rfl, h⟩

theorem throw {failure : Failure} : Yields r (throw failure : Trial σ β) Q := by
  intro s t b h
  exact (run_throw_ok.1 h).elim

/-- A silent step in front. -/
theorem after (hx : Silent r x) (hf : ∀ a, Yields r (f a) Q) : Yields r (x >>= f) Q := by
  refine hx.bind ?_
  rintro a _ _ ⟨rfl, rfl⟩
  exact hf a

/-- A check in front. -/
theorem check {stage : Stage} {result : Except Failure α}
    (hf : ∀ a, result = .ok a → Yields r (f a) Q) :
    Yields r (inStage stage result >>= f) Q := by
  intro s t b h
  obtain ⟨a, u, ha, hb⟩ := run_bind_ok.1 h
  obtain ⟨hresult, rfl⟩ := run_inStage_ok.1 ha
  exact hf a hresult s t b hb

end Yields

theorem silent_ofExcept (result : Except Failure α) : Silent r (ofExcept result : Trial σ α) := by
  intro s t a h
  obtain ⟨-, rfl⟩ := run_ofExcept_ok.1 h
  exact ⟨[], by simp, rfl, rfl, rfl⟩

theorem silent_announce (title : String) : Silent r (announce m title) := by
  rintro s t _ ⟨⟩
  exact ⟨[], by simp, rfl, rfl, rfl⟩

theorem silent_enter (stage : Stage) : Silent r (enter stage : Trial σ Unit) := by
  rintro s t _ ⟨⟩
  exact ⟨[.entered stage], rfl, rfl, rfl, rfl⟩

theorem silent_note_rotated (before after : RootState) (row : String) :
    Silent r (note (.rotated before after row) : Trial σ Unit) := by
  rintro s t _ ⟨⟩
  exact ⟨[.rotated before after row], rfl, rfl, rfl, rfl⟩

theorem silent_invoke {i : Invocation} (hi : i.args ≠ ["key", "list"]) :
    Silent r (invoke m r i) := by
  intro s t output h
  obtain ⟨reply, -, -, -, -, hjournal⟩ := run_invoke_ok h
  refine ⟨_, hjournal, rfl, rfl, ?_⟩
  simp [rootTables, Event.rootTable?, hi]

theorem silent_publish (d : TrustDir) : Silent site.runner (publish m site d) :=
  .after (silent_invoke (by simp [TrustDir.invocation, Invocation.new])) fun _ => .pure ⟨rfl, rfl⟩

theorem silent_add (target : String) : Silent site.runner (add m site stand target) :=
  .after (silent_invoke (by simp [TrustDir.invocation, Invocation.new])) fun _ => .pure ⟨rfl, rfl⟩

theorem silent_listTargets (d : TrustDir) : Silent site.runner (listTargets m site d) :=
  silent_invoke (by simp [TrustDir.invocation, Invocation.new])

theorem silent_listBoth : Silent site.runner (listBoth m site stand) :=
  .after (silent_listTargets _) fun _ => .after (silent_listTargets _) fun _ => .pure ⟨rfl, rfl⟩

theorem yields_listKeys (d : TrustDir) :
    Yields site.runner (listKeys m site d) fun rows docs tables =>
      docs = [] ∧ tables = [KeyListing.rootLines rows] := by
  intro s t rows h
  obtain ⟨output, u, hinvoke, hpure⟩ := run_bind_ok.1 h
  obtain ⟨rfl, rfl⟩ := run_pure_ok.1 hpure
  obtain ⟨reply, -, rfl, -, -, hjournal⟩ := run_invoke_ok hinvoke
  refine ⟨_, hjournal, rfl, rfl, ?_⟩
  simp [rootTables, Event.rootTable?, TrustDir.invocation, Invocation.new]

theorem yields_loadRoot (d : TrustDir) :
    Yields r (loadRoot m site d) fun document docs tables => docs = [document] ∧ tables = [] := by
  intro s t document h
  obtain ⟨-, rfl⟩ := run_loadRoot_ok.1 h
  exact ⟨[.loaded document], rfl, rfl, rfl, rfl⟩

/-! ## The judgement of a rotation -/

theorem newRootRow_ok {history : RootHistory} {rows : List KeyRow} {row : String}
    (h : newRootRow history rows = .ok row) :
    (KeyListing.rootLines rows).filter (fun line => line ∉ history.rows) = [row] := by
  obtain ⟨row, hrow, rfl⟩ := newRootRow_eq_ok.1 h
  rw [newRootRows_eq] at hrow
  rw [KeyListing.rootLines, List.filter_map]
  exact congrArg (List.map KeyRow.line) hrow

/-- A rotation with what it was judged by: the documents before and after it with their root keys,
the root rows printed before and after it, and the row that was taken to be new. -/
structure Turn where
  before : RootDocument
  after : RootDocument
  oldKey : String
  newKey : String
  known : List String
  shown : List String
  row : String

namespace Turn

/-- The rotation is in order, given what has been seen before. -/
structure Sound (x : Turn) (history : RootHistory) : Prop where
  before_root : x.before.trustedKeys rootRole = [x.oldKey]
  after_root : x.after.trustedKeys rootRole = [x.newKey]
  grown : x.after.keyCount = x.before.keyCount + 1
  fresh : x.newKey ∉ x.oldKey :: history.keys
  new_row : x.shown.filter (fun line => line ∉ x.known ++ history.rows) = [x.row]

/-- What has been seen after the rotation. -/
def extend (x : Turn) (history : RootHistory) : RootHistory :=
  ⟨x.newKey :: x.oldKey :: history.keys, x.row :: (x.known ++ history.rows)⟩

end Turn

/-! ## Scenarios -/

theorem yields_rotateRoot (history : RootHistory) (before : RootState) :
    Yields site.runner (rotateRoot m site stand history before) fun history' docs tables =>
      ∃ after key shown row, docs = [after] ∧ tables = [shown] ∧
        after.trustedKeys rootRole = [key] ∧ after.keyCount = before.keyCount + 1 ∧
        key ∉ before.rootKey :: history.keys ∧
        shown.filter (fun line => line ∉ history.rows) = [row] ∧
        history' = (history.addRows [row]).addKey key := by
  refine .after (silent_enter _) fun _ => .after (silent_announce _) fun _ => ?_
  refine .after (silent_invoke (by simp [Invocation.withPayload, TrustDir.invocation,
    Invocation.new])) fun _ => ?_
  refine .after (silent_enter _) fun _ => .after (silent_enter _) fun _ => ?_
  refine (yields_listKeys _).bind ?_
  rintro rows _ _ ⟨rfl, rfl⟩
  refine .check fun row hrow => .after (silent_enter _) fun _ => ?_
  refine .after (silent_listTargets _) fun _ => (yields_loadRoot _).bind ?_
  rintro after _ _ ⟨rfl, rfl⟩
  refine .check fun state hstate => .after (silent_note_rotated _ _ _) fun _ => .pure ?_
  obtain ⟨hcount, hcapture, hfresh⟩ := rotated_eq_ok.1 hstate
  exact ⟨after, state.rootKey, _, row, rfl, rfl, (capture_eq_ok.1 hcapture).2, hcount, hfresh,
    newRootRow_ok hrow, rfl⟩

/-- What a rotation of the root key yields within a scenario that knows the document and the root
rows from before it. -/
theorem yields_turn {history : RootHistory} {document : RootDocument} {before : RootState}
    {known : List String} (hbefore : RootState.capture document = .ok before) :
    Yields site.runner
      (rotateRoot m site stand ((history.addRows known).addKey before.rootKey) before)
      fun history' docs tables => ∃ x : Turn, x.Sound history ∧ history' = x.extend history ∧
        x.before = document ∧ x.known = known ∧ docs = [x.after] ∧ tables = [x.shown] := by
  intro s t history' h
  obtain ⟨events, hjournal, hopen, after, key, shown, row, hdocs, htables, hkeys, hcount, hfresh,
    hrow, rfl⟩ := yields_rotateRoot _ _ s t history' h
  obtain ⟨hold, hroot⟩ := capture_eq_ok.1 hbefore
  refine ⟨events, hjournal, hopen, ⟨document, after, before.rootKey, key, known, shown, row⟩, ?_,
    rfl, rfl, rfl, hdocs, htables⟩
  refine ⟨hroot, hkeys, by rw [hcount, hold], ?_, hrow⟩
  simp only [RootHistory.addKey, RootHistory.addRows, List.mem_cons, not_or] at hfresh ⊢
  exact ⟨hfresh.1, hfresh.2.2⟩

theorem silent_basicRepo : Silent site.runner (basicRepo m site stand) := by
  refine .after (silent_announce _) fun _ => .after (silent_invoke ?_) fun _ => ?_
  · simp [TrustDir.invocation, Invocation.new]
  refine .after (silent_add _) fun _ => .after (silent_publish _) fun _ => ?_
  refine .after (silent_announce _) fun _ => .after silent_listBoth fun _ => ?_
  refine .after (silent_ofExcept _) fun rows => ?_
  split
  · refine .after (silent_invoke ?_) fun _ => .pure ⟨rfl, rfl⟩
    simp [Invocation.withoutCredentials, TrustDir.invocation, Invocation.new]
  · exact .throw

/-- What a scenario may yield: a rotation in order, or nothing at all. -/
inductive Judged (history : RootHistory) :
    Scenario → RootHistory → List RootDocument → List (List String) → Prop where
  | basicRepo : Judged history .basicRepo history [] []
  | turn {scenario : Scenario} (x : Turn) : scenario ≠ .basicRepo → x.Sound history →
      Judged history scenario (x.extend history) [x.before, x.after] [x.known, x.shown]

theorem yields_rootRotation (history : RootHistory) :
    Yields site.runner (rootRotation m site stand history) (Judged history .rootRotation) := by
  refine .after (silent_enter _) fun _ => .after (silent_invoke ?_) fun _ => ?_
  · simp [TrustDir.invocation, Invocation.new]
  refine .after (silent_enter _) fun _ => .after (silent_announce _) fun _ => ?_
  refine .after (silent_listTargets _) fun _ => (yields_listKeys _).bind ?_
  rintro rows _ _ ⟨rfl, rfl⟩
  refine .check fun row hrow => (yields_loadRoot _).bind ?_
  rintro document _ _ ⟨rfl, rfl⟩
  refine .check fun before hbefore => (yields_turn hbefore).bind ?_
  rintro _ _ _ ⟨x, hx, rfl, hdocument, hknown, rfl, rfl⟩
  refine .after (silent_enter _) fun _ => .after (silent_announce _) fun _ => ?_
  refine .after (silent_publish _) fun _ => .after (silent_add _) fun _ => ?_
  refine .after (silent_publish _) fun _ => .after silent_listBoth fun _ => .check fun _ _ => ?_
  dsimp only
  split
  · refine .pure ?_
    have hlines := congrArg (List.map KeyRow.line) (singleRoot_eq_ok.1 hrow)
    rw [KeyListing.rootLines, hlines, List.map_singleton, ← hknown, ← hdocument]
    exact .turn x (by simp) hx
  · exact .throw

theorem yields_rootRerotation (history : RootHistory) :
    Yields site.runner (rootRerotation m site stand history) (Judged history .rootRerotation) := by
  refine .after (silent_enter _) fun _ => .after (silent_announce _) fun _ => ?_
  refine .after (silent_listTargets _) fun _ => (yields_listKeys _).bind ?_
  rintro rows _ _ ⟨rfl, rfl⟩
  dsimp only
  split
  · exact .throw
  refine (yields_loadRoot _).bind ?_
  rintro document _ _ ⟨rfl, rfl⟩
  refine .check fun before hbefore => (yields_turn hbefore).bind ?_
  rintro _ _ _ ⟨x, hx, rfl, hdocument, hknown, rfl, rfl⟩
  refine .after (silent_enter _) fun _ => .after (silent_announce _) fun _ => ?_
  refine .after (silent_publish _) fun _ => .after (silent_publish _) fun _ => ?_
  refine .after silent_listBoth fun _ => .check fun _ _ => ?_
  split
  · refine .pure ?_
    rw [KeyListing.rootLines, ← hknown, ← hdocument]
    exact .turn x (by simp) hx
  · exact .throw

theorem yields_body (history : RootHistory) (scenario : Scenario) :
    Yields site.runner (body m site stand history scenario) (Judged history scenario) := by
  cases scenario with
  | basicRepo => exact .after silent_basicRepo fun _ => .pure .basicRepo
  | rootRotation => exact yields_rootRotation history
  | rootRerotation => exact yields_rootRerotation history

/-- A scenario that passes notes its start, and then what its body yields. -/
theorem runScenario_judged {history history' : RootHistory} {scenario : Scenario}
    {s t : Session σ} (h : run (runScenario m site history scenario) s = (.ok history', t)) :
    ∃ events, t.journal = s.journal ++ .began scenario :: events ∧ openings events = [] ∧
      Judged history scenario history' (documents events) (rootTables site.runner events) := by
  obtain ⟨stand, u, v, w, hset, hbody, hclean, rfl⟩ := run_runScenario_ok h
  obtain ⟨-, hu, -⟩ := setUp_cases hset
  obtain ⟨events, hv, hopen, hjudged⟩ := yields_body history scenario u v _ hbody
  have htidy := sameTalk_cleanUp m stand v
  rw [hclean] at htidy
  refine ⟨events, ?_, hopen, hjudged⟩
  rw [(sameTalk_passed m w).journal, htidy.journal, hv, hu, opened_journal, List.append_assoc]
  rfl

/-! ## Trials -/

/-- The history has the root keys and root rows of all documents and tables so far. -/
structure Covers (history : RootHistory) (docs : List RootDocument)
    (tables : List (List String)) : Prop where
  keys : ∀ d ∈ docs, ∃ key ∈ history.keys, d.trustedKeys rootRole = [key]
  rows : ∀ line, line ∈ history.rows ↔ ∃ table ∈ tables, line ∈ table

theorem covers_empty : Covers .empty [] [] := ⟨by simp, by simp [RootHistory.empty]⟩

/-- A row that is shown after a rotation is the new one or was seen before. -/
theorem Turn.Sound.mem_shown {x : Turn} {history : RootHistory} (h : x.Sound history)
    (line : String) :
    line ∈ x.row :: (x.known ++ history.rows) ↔ line ∈ x.shown ∨ line ∈ x.known ++ history.rows := by
  have hfilter : line ∈ x.shown.filter (fun line => line ∉ x.known ++ history.rows) ↔
      line = x.row := by
    rw [h.new_row, List.mem_singleton]
  rw [List.mem_filter, decide_eq_true_eq] at hfilter
  rw [List.mem_cons, ← hfilter]
  by_cases hline : line ∈ x.known ++ history.rows <;> simp [hline]

theorem Judged.covers {history history' : RootHistory} {scenario : Scenario}
    {docs new : List RootDocument} {tables more : List (List String)}
    (h : Judged history scenario history' new more) (hc : Covers history docs tables) :
    Covers history' (docs ++ new) (tables ++ more) := by
  cases h with
  | basicRepo => simpa using hc
  | turn x _ hx =>
    constructor
    · intro d hd
      rcases List.mem_append.1 hd with hd | hd
      · obtain ⟨key, hkey, hroot⟩ := hc.keys d hd
        exact ⟨key, by simp [Turn.extend, hkey], hroot⟩
      · simp only [List.mem_cons, List.not_mem_nil, or_false] at hd
        obtain rfl | rfl := hd
        · exact ⟨x.oldKey, by simp [Turn.extend], hx.before_root⟩
        · exact ⟨x.newKey, by simp [Turn.extend], hx.after_root⟩
    · intro line
      rw [Turn.extend, hx.mem_shown line, List.mem_append, hc.rows line]
      simp only [List.mem_append, List.mem_cons, List.not_mem_nil, or_false]
      constructor
      · rintro (hline | hline | ⟨table, htable, hline⟩)
        · exact ⟨x.shown, .inr (.inr rfl), hline⟩
        · exact ⟨x.known, .inr (.inl rfl), hline⟩
        · exact ⟨table, .inl htable, hline⟩
      · rintro ⟨table, htable | rfl | rfl, hline⟩
        · exact .inr (.inr ⟨table, htable, hline⟩)
        · exact .inr (.inl hline)
        · exact .inl hline

/-- The journal of scenarios one after the other: what happened in each follows its start. -/
def journalOf (parts : List (Scenario × List Event)) : List Event :=
  parts.flatMap fun part => .began part.1 :: part.2

@[simp] theorem journalOf_nil : journalOf [] = [] := rfl

@[simp] theorem journalOf_cons (part : Scenario × List Event)
    (parts : List (Scenario × List Event)) :
    journalOf (part :: parts) = .began part.1 :: (part.2 ++ journalOf parts) := by
  rw [journalOf, List.flatMap_cons, List.cons_append, journalOf]

/-- What happened in a scenario is in order after `docs` and `tables`. If it rotates the root key,
it loads two documents; the later one has one key more, and a root key that no document before it
has. It lists keys twice; exactly one root row of the second list was never printed before. -/
def InOrder (r : Runner) (docs : List RootDocument) (tables : List (List String))
    (scenario : Scenario) (events : List Event) : Prop :=
  if scenario = .basicRepo then documents events = [] ∧ rootTables r events = []
  else
    ∃ before after key known shown row,
      documents events = [before, after] ∧ rootTables r events = [known, shown] ∧
      after.keyCount = before.keyCount + 1 ∧
      after.trustedKeys rootRole = [key] ∧
      (∀ d ∈ docs ++ [before], key ∉ d.trustedKeys rootRole) ∧
      shown.filter (fun line => ∀ table ∈ tables ++ [known], line ∉ table) = [row]

theorem Judged.inOrder {history history' : RootHistory} {scenario : Scenario}
    {docs : List RootDocument} {tables : List (List String)} {events : List Event}
    (h : Judged history scenario history' (documents events) (rootTables r events))
    (hc : Covers history docs tables) : InOrder r docs tables scenario events := by
  generalize hdocs : documents events = new at h
  generalize htables : rootTables r events = more at h
  cases h with
  | basicRepo => exact ⟨hdocs, htables⟩
  | turn x hscenario hx =>
    rw [InOrder, if_neg hscenario]
    refine ⟨x.before, x.after, x.newKey, x.known, x.shown, x.row, hdocs, htables, hx.grown,
      hx.after_root, ?_, ?_⟩
    · intro d hd
      have hfresh := hx.fresh
      simp only [List.mem_cons, not_or] at hfresh
      rcases List.mem_append.1 hd with hd | hd
      · obtain ⟨key, hkey, hroot⟩ := hc.keys d hd
        rw [hroot, List.mem_singleton]
        rintro rfl
        exact hfresh.2 hkey
      · rw [List.mem_singleton.1 hd, hx.before_root, List.mem_singleton]
        exact hfresh.1
    · rw [← hx.new_row]
      congr 1
      funext line
      have hrows := hc.rows line
      simp only [decide_eq_decide, List.mem_append, List.mem_singleton, hrows]
      constructor
      · rintro hline (hknown | ⟨table, htable, hmem⟩)
        · exact hline x.known (.inr rfl) hknown
        · exact hline table (.inl htable) hmem
      · rintro hline table (htable | rfl) hmem
        · exact hline (.inr ⟨table, htable, hmem⟩)
        · exact hline (.inl hmem)

theorem runEach_inOrder {history : RootHistory} {before scenarios passed : List Scenario}
    {s t : Session σ}
    (hc : Covers history (documents s.journal) (rootTables site.runner s.journal))
    (h : run (runEach m site history before scenarios) s = (.ok passed, t)) :
    (∀ d ∈ documents t.journal, ∃ key, d.trustedKeys rootRole = [key]) ∧
      ∃ parts, parts.map Prod.fst = scenarios ∧ t.journal = s.journal ++ journalOf parts ∧
        ∀ past part future, parts = past ++ part :: future → openings part.2 = [] ∧
          InOrder site.runner (documents (s.journal ++ journalOf past))
            (rootTables site.runner (s.journal ++ journalOf past)) part.1 part.2 := by
  induction scenarios generalizing history before s with
  | nil =>
    rw [run_runEach_nil] at h
    cases h
    refine ⟨fun d hd => ?_, [], rfl, by simp, by simp⟩
    obtain ⟨key, -, hroot⟩ := hc.keys d hd
    exact ⟨key, hroot⟩
  | cons scenario scenarios ih =>
    rw [run_runEach_cons] at h
    rcases hrun : run (runScenario m site history scenario) s with ⟨result, u⟩
    rw [hrun] at h
    cases result with
    | error failure => cases h
    | ok history' =>
      obtain ⟨events, hjournal, hopen, hjudged⟩ := runScenario_judged hrun
      have hc' : Covers history' (documents u.journal) (rootTables site.runner u.journal) := by
        simpa [hjournal] using hjudged.covers hc
      obtain ⟨hsingle, parts, hparts, ht, horder⟩ := ih hc' h
      refine ⟨hsingle, (scenario, events) :: parts, by simp [hparts], ?_, ?_⟩
      · simp [ht, hjournal]
      · intro past part future hsplit
        cases past with
        | nil =>
          obtain ⟨rfl, -⟩ := List.cons.inj hsplit
          exact ⟨hopen, by simpa using hjudged.inOrder hc⟩
        | cons first past =>
          rw [List.cons_append] at hsplit
          obtain ⟨hfirst, hrest⟩ := List.cons.inj hsplit
          subst hfirst
          simpa [hjournal] using horder past part future hrest

/-- A trial that passes has passed scenario by scenario, from a journal without documents. -/
theorem runEach_of_runAll {m : Machine σ} {r : Runner} {repo : String}
    {scenarios passed : List Scenario} {disk : Disk.Tree} {c : σ} {t : Session σ}
    (h : run (runAll m r repo scenarios) (Session.start disk c) = (.ok passed, t)) :
    ∃ primary s u, s.journal = [] ∧ t.journal = u.journal ∧
      run (runEach m ⟨r, repo, primary⟩ .empty [] scenarios) s = (.ok passed, u) := by
  obtain ⟨primary, s, u, hprimary, hrun, hremove, -⟩ := run_runAll_ok h
  obtain ⟨-, hjournal, -⟩ := primary_cases hprimary
  have htidy := sameTalk_remove m primary u
  rw [hremove] at htidy
  exact ⟨primary, s, u, hjournal, htidy.journal, hrun⟩

/-- A trial that passes has seen the root key rotate properly, whatever the client is. Every root
document it loaded has one trusted root key, and what happened in each scenario is in order after
everything that happened before. -/
theorem runAll_inOrder {m : Machine σ} {r : Runner} {repo : String}
    {scenarios passed : List Scenario} {disk : Disk.Tree} {c : σ} {t : Session σ}
    (h : run (runAll m r repo scenarios) (Session.start disk c) = (.ok passed, t)) :
    (∀ d ∈ documents t.journal, ∃ key, d.trustedKeys rootRole = [key]) ∧
      ∃ parts, parts.map Prod.fst = scenarios ∧ t.journal = journalOf parts ∧
        ∀ past part future, parts = past ++ part :: future → openings part.2 = [] ∧
          InOrder r (documents (journalOf past)) (rootTables r (journalOf past))
            part.1 part.2 := by
  obtain ⟨primary, s, u, hstart, hend, hrun⟩ := runEach_of_runAll h
  have hempty : Covers .empty (documents s.journal) (rootTables r s.journal) := by
    rw [hstart]
    exact covers_empty
  rw [hend]
  simpa [hstart] using runEach_inOrder hempty hrun

/-- A client with two root keys, of which the second is in use once the root has been rotated. -/
def twoKeys : Client Bool where
  run q rotated disk :=
    let rotated := rotated || q.args.contains "root"
    let home := ["tmp", ".tmp000002_temp", "tuf"]
    let document := fun keys trusted =>
      "\x7b\"signed\": \x7b\"keys\": \x7b" ++ keys ++
        "\x7d, \"roles\": \x7b\"root\": \x7b\"keyids\": [\"" ++ trusted ++ "\"]\x7d\x7d\x7d\x7d"
    let text := if rotated then document "\"a\": 0, \"b\": 0" "b" else document "\"a\": 0" "a"
    let row := if rotated then "root b" else "root a"
    let disk := (((disk.put home .directory).put (home ++ ["sample"]) .directory).put
      (home ++ ["sample", "metadata"]) .directory).put
      (home ++ ["sample", "metadata", "root.json"]) (.file text.toUTF8 false)
    let said := if q.args.contains "key" then row
      else basicTarget ++ " targets\n" ++ rotationTarget ++ " targets"
    (⟨said.toUTF8, "", some 0⟩, rotated, disk)

/-- A trial with that client. -/
def twoKeysTrial : Except Failure (List Scenario) × Session Bool :=
  run (runAll ((Main.machine "sample").withClient twoKeys) sampleRunner "sample" [.rootRotation])
    (Session.start Main.disk false)

theorem runAll_inOrder_twoKeys :
    ∃ before after key, documents twoKeysTrial.2.journal = [before, after] ∧
      after.trustedKeys rootRole = [key] ∧ key ∉ before.trustedKeys rootRole := by
  have hpasses : failure? twoKeysTrial.1 = none := by decide +kernel
  rcases h : twoKeysTrial with ⟨result, t⟩
  rw [h] at hpasses
  cases result with
  | error failure => cases hpasses
  | ok passed =>
    obtain ⟨-, parts, hparts, hjournal, horder⟩ := runAll_inOrder (by rw [← twoKeysTrial, h])
    obtain ⟨⟨scenario, events⟩, rfl, rfl⟩ := List.map_eq_singleton_iff.1 hparts
    obtain ⟨-, before, after, key, _, _, _, hdocs, -, -, hkey, hfresh, -⟩ := horder [] _ [] rfl
    exact ⟨before, after, key, by simp [hjournal, hdocs], hkey, hfresh before (by simp)⟩

end Trial
end TrustTrial
