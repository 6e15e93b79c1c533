import TrustTrial.Proofs.Script

/-!
# TrustTrial.Proofs.Verdicts

What a scenario asks for, exactly. All that a body finds out comes from its calls: the text that
each of them prints, and the files that it leaves behind. `HearsAll` keeps a record of both, call by
call; whether the body passes is then a question about the record (`body_passes_iff`), in which the
program does not occur any more.

* `Judges`: a step passes exactly if its calls are heard and the record fits, with one rule for each
  kind of step in front of others.
* `Accepted`: the question that each scenario asks.
-/

namespace TrustTrial

/-- What a call of the client finds, and may change. -/
structure World (σ : Type) where
  client : σ
  disk : Disk.Tree

/-- A call that went well: the text that it printed, and what it left behind. -/
structure Heard (σ : Type) where
  text : String
  world : World σ

def Session.world {σ : Type} (s : Session σ) : World σ := ⟨s.client, s.disk⟩

namespace Trial

variable {σ α β : Type} {m : Machine σ} {r : Runner} {site : Site} {stand : Stand} {w : World σ}

/-! ## Calls -/

/-- A call can be made, and the client ends with success. -/
structure Hears (m : Machine σ) (r : Runner) (i : Invocation) (w : World σ) (h : Heard σ) :
    Prop where
  captured : captureFault m w.disk = none
  started : (r.request m i).refused m.argumentSpace w.disk = none
  answered : ∃ reply, m.client.run (r.request m i) w.client w.disk =
      (reply, h.world.client, h.world.disk) ∧
    reply.exit = some 0 ∧ Text.ofBytes reply.stdout = h.text

/-- Calls one after the other, each in the world that the one before it left behind. -/
def HearsAll (m : Machine σ) (r : Runner) : List Invocation → World σ → List (Heard σ) → Prop
  | [], _, [] => True
  | i :: is, w, h :: heard => Hears m r i w h ∧ HearsAll m r is h.world heard
  | _, _, _ => False

theorem hearsAll_nil {heard : List (Heard σ)} : HearsAll m r [] w heard ↔ heard = [] := by
  cases heard <;> simp [HearsAll]

/-- An invocation succeeds exactly if it is heard. -/
theorem run_invoke_ok_iff {i : Invocation} {s : Session σ} {output : String} {v : World σ} :
    (∃ t, run (invoke m r i) s = (.ok output, t) ∧ t.world = v) ↔
      Hears m r i s.world ⟨output, v⟩ := by
  constructor
  · rintro ⟨t, h, rfl⟩
    obtain ⟨hcapture, hrefused, reply, hexit, htext, hrun, -⟩ := run_invoke_made h
    exact ⟨hcapture, hrefused, reply, hrun, hexit, htext⟩
  · rintro ⟨hcapture, hrefused, reply, hrun, hexit, rfl⟩
    obtain ⟨t, ht, hdisk, hclient, -⟩ := run_invoke_of_starts hcapture hrefused hrun
    refine ⟨t, ?_, ?_⟩
    · rw [ht, Outcome.output, Outcome.succeeded, hexit]
      rfl
    · rw [Session.world, hdisk, hclient]

/-! ## Steps -/

/-- A step that makes the calls of a script, and comes to `a` exactly if all of them are heard and
`P` holds of what is heard. -/
def Judges (m : Machine σ) (r : Runner) (w : World σ) (is : List Invocation) (x : Trial σ α)
    (P : List (Heard σ) → α → Prop) : Prop :=
  ∀ s : Session σ, s.world = w → ∀ a,
    (∃ t, run x s = (.ok a, t)) ↔ ∃ heard, HearsAll m r is w heard ∧ P heard a

namespace Judges

variable {x : Trial σ α} {f : α → Trial σ β} {is : List Invocation}
  {P Q : List (Heard σ) → α → Prop}

theorem congr (hx : Judges m r w is x P) (h : ∀ heard a, P heard a ↔ Q heard a) :
    Judges m r w is x Q := by
  intro s hs a
  refine (hx s hs a).trans (exists_congr fun heard => ?_)
  exact and_congr_right fun _ => h heard a

theorem pure (a : α) : Judges m r w [] (pure a) fun heard b => heard = [] ∧ a = b := by
  intro s _ b
  simp [hearsAll_nil]

/-- A step in front that neither fails nor changes anything a call could find. -/
theorem idle {x : Trial σ Unit} {f : Unit → Trial σ α}
    (hx : ∀ s, ∃ t, run x s = (.ok (), t) ∧ t.world = s.world) (hf : Judges m r w is (f ()) P) :
    Judges m r w is (x >>= f) P := by
  rintro s rfl a
  obtain ⟨t, ht, hworld⟩ := hx s
  rw [run_bind_of_ok f ht]
  exact hf t hworld a

/-- A check in front. -/
theorem ofExcept {result : Except Failure α} {f : α → Trial σ β}
    {P : α → List (Heard σ) → β → Prop} (hf : ∀ a, Judges m r w is (f a) (P a)) :
    Judges m r w is (ofExcept result >>= f) fun heard b => ∃ a, result = .ok a ∧ P a heard b := by
  intro s hs b
  cases result with
  | error failure => simp [run_bind]
  | ok a => simpa [run_bind] using hf a s hs b

theorem check {stage : Stage} {result : Except Failure α} {f : α → Trial σ β}
    {P : α → List (Heard σ) → β → Prop} (hf : ∀ a, Judges m r w is (f a) (P a)) :
    Judges m r w is (inStage stage result >>= f) fun heard b =>
      ∃ a, result = .ok a ∧ P a heard b := by
  unfold inStage
  refine (ofExcept hf).congr fun heard b => ?_
  cases result <;> simp

theorem guard {c : Prop} [Decidable c] {failure : Failure} (hx : Judges m r w is x P) :
    Judges m r w is (if c then x else throw failure) fun heard a => c ∧ P heard a := by
  intro s hs a
  by_cases hc : c
  · simpa [hc] using hx s hs a
  · simp [hc]

theorem refuse {c : Prop} [Decidable c] {failure : Failure} (hx : Judges m r w is x P) :
    Judges m r w is (if c then throw failure else x) fun heard a => ¬c ∧ P heard a := by
  intro s hs a
  by_cases hc : c
  · simp [hc]
  · simpa [hc] using hx s hs a

/-- A condition in front of further steps. -/
theorem guardBind {c : Prop} [Decidable c] {failure : Failure} {f : α → Trial σ β}
    {P : List (Heard σ) → β → Prop} (hx : Judges m r w is (x >>= f) P) :
    Judges m r w is ((if c then x else throw failure) >>= f) fun heard b => c ∧ P heard b := by
  intro s hs b
  by_cases hc : c
  · simpa [hc] using hx s hs b
  · simp [hc]

/-- The root document of an identity is loaded as it is at the time. -/
theorem load {d : TrustDir} {f : RootDocument → Trial σ α}
    {P : RootDocument → List (Heard σ) → α → Prop}
    (hf : ∀ document, Judges m r w is (f document) (P document)) :
    Judges m r w is (loadRoot m site d >>= f) fun heard a =>
      ∃ document, RootDocument.load w.disk m.here d.path site.repo = .ok document ∧
        P document heard a := by
  rintro s rfl a
  rw [loadRoot, bind_assoc, run_bind, run_look]
  change _ ↔ ∃ heard, _ ∧ ∃ document, RootDocument.load s.disk _ _ _ = _ ∧ _
  cases RootDocument.load s.disk m.here d.path site.repo with
  | error failure => simp
  | ok document => simpa [run_bind] using hf document (s.note (.loaded document)) rfl a

theorem call {i : Invocation} {f : String → Trial σ α} {P : Heard σ → List (Heard σ) → α → Prop}
    (hf : ∀ h, Judges m r h.world is (f h.text) (P h)) :
    Judges m r w (i :: is) (invoke m r i >>= f) fun heard a =>
      ∃ h rest, heard = h :: rest ∧ P h rest a := by
  rintro s rfl a
  constructor
  · rintro ⟨t, h⟩
    obtain ⟨output, u, hinvoke, hrest⟩ := run_bind_ok.1 h
    have hheard := run_invoke_ok_iff.1 ⟨u, hinvoke, rfl⟩
    obtain ⟨rest, hall, hP⟩ := (hf ⟨output, u.world⟩ u rfl a).1 ⟨t, hrest⟩
    exact ⟨_ :: rest, ⟨hheard, hall⟩, _, rest, rfl, hP⟩
  · rintro ⟨_, hall, h, rest, rfl, hP⟩
    obtain ⟨u, hinvoke, hworld⟩ := run_invoke_ok_iff.2 hall.1
    obtain ⟨t, hrest⟩ := (hf h u hworld a).2 ⟨rest, hall.2, hP⟩
    exact ⟨t, run_bind_ok.2 ⟨_, u, hinvoke, hrest⟩⟩

end Judges

/-! ## Steps of scenarios -/

section Steps

variable {is : List Invocation} {f : Unit → Trial σ α}

theorem Judges.announce {title : String} {P : List (Heard σ) → α → Prop}
    (hf : Judges m r w is (f ()) P) : Judges m r w is (announce m title >>= f) P :=
  idle (fun _ => ⟨_, rfl, rfl⟩) hf

theorem Judges.enter {stage : Stage} {P : List (Heard σ) → α → Prop}
    (hf : Judges m r w is (f ()) P) : Judges m r w is (enter stage >>= f) P :=
  idle (fun _ => ⟨_, rfl, rfl⟩) hf

theorem Judges.publish {d : TrustDir} {P : Heard σ → List (Heard σ) → α → Prop}
    (hf : ∀ h, Judges m site.runner h.world is (f ()) (P h)) :
    Judges m site.runner w (d.invocation ["publish", site.repo] :: is) (publish m site d >>= f)
      fun heard a => ∃ h rest, heard = h :: rest ∧ P h rest a := by
  rw [Trial.publish, bind_assoc]
  exact call hf

theorem Judges.add {target : String} {P : Heard σ → List (Heard σ) → α → Prop}
    (hf : ∀ h, Judges m site.runner h.world is (f ()) (P h)) :
    Judges m site.runner w
      (site.primary.invocation ["add", site.repo, target, stand.payload] :: is)
      (add m site stand target >>= f) fun heard a => ∃ h rest, heard = h :: rest ∧ P h rest a := by
  rw [Trial.add, bind_assoc]
  exact call hf

theorem Judges.listTargets {d : TrustDir} {f : String → Trial σ α}
    {P : Heard σ → List (Heard σ) → α → Prop}
    (hf : ∀ h, Judges m site.runner h.world is (f h.text) (P h)) :
    Judges m site.runner w (d.invocation ["list", site.repo] :: is) (listTargets m site d >>= f)
      fun heard a => ∃ h rest, heard = h :: rest ∧ P h rest a :=
  call hf

theorem Judges.listKeys {d : TrustDir} {f : List KeyRow → Trial σ α}
    {P : Heard σ → List (Heard σ) → α → Prop}
    (hf : ∀ h, Judges m site.runner h.world is (f (KeyListing.read h.text)) (P h)) :
    Judges m site.runner w (d.invocation ["key", "list"] :: is) (listKeys m site d >>= f)
      fun heard a => ∃ h rest, heard = h :: rest ∧ P h rest a := by
  rw [Trial.listKeys, bind_assoc]
  exact call hf

theorem Judges.listBoth {f : String × String → Trial σ α}
    {P : Heard σ → Heard σ → List (Heard σ) → α → Prop}
    (hf : ∀ first second,
      Judges m site.runner second.world is (f (first.text, second.text)) (P first second)) :
    Judges m site.runner w
      (site.primary.invocation ["list", site.repo] ::
        stand.secondary.invocation ["list", site.repo] :: is)
      (listBoth m site stand >>= f) fun heard a => ∃ first rest, heard = first :: rest ∧
        ∃ second more, rest = second :: more ∧ P first second more a := by
  rw [Trial.listBoth, bind_assoc]
  refine listTargets fun first => ?_
  rw [bind_assoc]
  exact listTargets fun second => hf first second

/-- The checks of a rotation, by what is heard in it: the key table after it, and the listing that
refreshes the root document of the secondary identity. -/
theorem Judges.rotateRoot {history : RootHistory} {before : RootState} {f : RootHistory → Trial σ α}
    {P : RootHistory → List (Heard σ) → α → Prop}
    (hf : ∀ w ended, Judges m site.runner w is (f ended) (P ended)) :
    Judges m site.runner w (rotationScript site.repo site.primary stand ++ is)
      (rotateRoot m site stand history before >>= f) fun heard a =>
        ∃ rotated listed synced rest, heard = rotated :: listed :: synced :: rest ∧
          ∃ row, newRootRow history (KeyListing.read listed.text) = .ok row ∧
          ∃ document, RootDocument.load synced.world.disk m.here stand.secondary.path site.repo =
            .ok document ∧
          ∃ after, RootState.rotated before document history.keys = .ok after ∧
            P ((history.addRows [row]).addKey after.rootKey) rest a := by
  simp only [Trial.rotateRoot, bind_assoc, pure_bind]
  apply congr
  · apply enter
    apply announce
    apply call
    intro rotated
    apply enter
    apply enter
    apply listKeys
    intro listed
    apply check
    intro row
    apply enter
    apply listTargets
    intro synced
    apply load
    intro document
    apply check
    intro after
    apply idle
    · exact fun _ => ⟨_, rfl, rfl⟩
    · exact hf _ _
  · intro heard a
    constructor
    · rintro ⟨rotated, _, rfl, listed, _, rfl, row, hrow, synced, rest, rfl, h⟩
      exact ⟨rotated, listed, synced, rest, rfl, row, hrow, h⟩
    · rintro ⟨rotated, listed, synced, rest, rfl, row, hrow, h⟩
      exact ⟨rotated, _, rfl, listed, _, rfl, row, hrow, synced, rest, rfl, h⟩

end Steps

/-! ## What scenarios ask for -/

/-- A rotation of the root key that is in order. The root document from before it is the one that
`enumerated` left behind, the one after it the one that `synced` left behind; `listed` is the key
table after it, and `known` holds the root keys and the root rows from before. -/
def Turned (m : Machine σ) (site : Site) (stand : Stand) (known : RootHistory)
    (enumerated listed synced : Heard σ) (ended : RootHistory) : Prop :=
  ∃ before after key newKey row,
    RootDocument.load enumerated.world.disk m.here stand.secondary.path site.repo = .ok before ∧
      before.trustedKeys rootRole = [key] ∧
      (KeyListing.rootRows (KeyListing.read listed.text)).filter
        (fun row => row.line ∉ known.rows) = [row] ∧
      RootDocument.load synced.world.disk m.here stand.secondary.path site.repo = .ok after ∧
      after.keyCount = before.keyCount + 1 ∧ after.trustedKeys rootRole = [newKey] ∧
      newKey ≠ key ∧ newKey ∉ known.keys ∧
      ended = ((known.addKey key).addRows [row.line]).addKey newKey

/-- The checks of a rotation pass exactly if it is in order. -/
theorem turned_iff {known : RootHistory} {enumerated listed synced : Heard σ}
    {ended : RootHistory} :
    Turned m site stand known enumerated listed synced ended ↔
      ∃ document, RootDocument.load enumerated.world.disk m.here stand.secondary.path site.repo =
        .ok document ∧
      ∃ before, RootState.capture document = .ok before ∧
      ∃ row, newRootRow (known.addKey before.rootKey) (KeyListing.read listed.text) = .ok row ∧
      ∃ reloaded, RootDocument.load synced.world.disk m.here stand.secondary.path site.repo =
        .ok reloaded ∧
      ∃ after, RootState.rotated before reloaded (known.addKey before.rootKey).keys = .ok after ∧
        ended = ((known.addKey before.rootKey).addRows [row]).addKey after.rootKey := by
  simp only [capture_eq_ok, rotated_eq_ok, newRootRow_eq_ok, newRootRows_eq, RootHistory.addKey,
    List.mem_cons, not_or]
  constructor
  · rintro ⟨document, reloaded, key, newKey, row, hload, hroot, hrow, hreload, hcount, hnewRoot,
      hsame, hknown, rfl⟩
    exact ⟨document, hload, ⟨document.keyCount, key⟩, ⟨rfl, hroot⟩, _, ⟨row, hrow, rfl⟩, reloaded,
      hreload, ⟨reloaded.keyCount, newKey⟩, ⟨hcount, ⟨rfl, hnewRoot⟩, hsame, hsame, hknown⟩, rfl⟩
  · rintro ⟨document, hload, before, ⟨hbefore, hroot⟩, _, ⟨row, hrow, rfl⟩, reloaded, hreload,
      after, ⟨hcount, ⟨-, hnewRoot⟩, hsame, -, hknown⟩, rfl⟩
    exact ⟨document, reloaded, before.rootKey, after.rootKey, row, hload, hroot, hrow, hreload,
      hbefore ▸ hcount, hnewRoot, hsame, hknown, rfl⟩

/-- A rotation with the loading of the root document before it. -/
theorem Judges.turn {known : RootHistory} {enumerated : Heard σ} {is : List Invocation}
    {f : RootHistory → Trial σ α} {P : RootHistory → List (Heard σ) → α → Prop}
    (hf : ∀ w ended, Judges m site.runner w is (f ended) (P ended)) :
    Judges m site.runner enumerated.world (rotationScript site.repo site.primary stand ++ is)
      (do
        let document ← loadRoot m site stand.secondary
        let before ← inStage .keysEnumerated (RootState.capture document)
        let history ← Trial.rotateRoot m site stand (known.addKey before.rootKey) before
        f history)
      fun heard a => ∃ rotated listed synced rest, heard = rotated :: listed :: synced :: rest ∧
        ∃ ended, Turned m site stand known enumerated listed synced ended ∧ P ended rest a := by
  apply congr
  · apply load
    intro document
    apply check
    intro before
    exact rotateRoot hf
  · intro heard a
    simp only [turned_iff]
    constructor
    · rintro ⟨document, hload, before, hbefore, rotated, listed, synced, rest, rfl, row, hrow,
        reloaded, hreload, after, hafter, hP⟩
      exact ⟨rotated, listed, synced, rest, rfl, _, ⟨document, hload, before, hbefore, row, hrow,
        reloaded, hreload, after, hafter, rfl⟩, hP⟩
    · rintro ⟨rotated, listed, synced, rest, rfl, _, ⟨document, hload, before, hbefore, row, hrow,
        reloaded, hreload, after, hafter, rfl⟩, hP⟩
      exact ⟨document, hload, before, hbefore, rotated, listed, synced, rest, rfl, row, hrow,
        reloaded, hreload, after, hafter, hP⟩

/-- What a scenario asks of its calls, and the history with which it ends. -/
def Accepted (m : Machine σ) (site : Site) (stand : Stand) (history : RootHistory) :
    Scenario → List (Heard σ) → RootHistory → Prop
  | .basicRepo, [_, _, _, first, second, _], ended =>
    first.text = second.text ∧
      (∃ row ∈ TargetListing.read first.text, row.name = basicTarget) ∧ ended = history
  | .rootRotation, [_, _, enumerated, _, listed, synced, _, _, _, first, second], ended =>
    ∃ row, KeyListing.rootRows (KeyListing.read enumerated.text) = [row] ∧
      Turned m site stand (history.addRows [row.line]) enumerated listed synced ended ∧
      first.text = second.text ∧
      TargetListing.count rotationTarget targetsRole (TargetListing.read first.text) = 1
  | .rootRerotation, [_, enumerated, _, listed, synced, _, _, first, second], ended =>
    ∃ rows, KeyListing.rootRows (KeyListing.read enumerated.text) = rows ∧ rows ≠ [] ∧
      Turned m site stand (history.addRows (rows.map KeyRow.line)) enumerated listed synced ended ∧
      first.text = second.text ∧
      ∃ row ∈ TargetListing.read first.text, row.name = basicTarget
  | _, _, _ => False

theorem hasName_iff {name : String} {rows : List TargetRow} :
    TargetListing.hasName name rows = true ↔ ∃ row ∈ rows, row.name = name := by
  simp [TargetListing.hasName]

-- The rules build the question that a body asks while they follow it, check by check in the order
-- of the calls. What is left to show is that `Accepted` asks the same.

theorem judges_basicRepo (history : RootHistory) :
    Judges m site.runner w (Scenario.basicRepo.script site.repo site.primary stand)
      (body m site stand history .basicRepo) (Accepted m site stand history .basicRepo) := by
  simp only [body, basicRepo, bind_assoc]
  apply Judges.congr
  · apply Judges.announce
    apply Judges.call
    intro _
    apply Judges.add
    intro _
    apply Judges.publish
    intro _
    apply Judges.announce
    apply Judges.listBoth
    intro first second
    apply Judges.ofExcept
    intro rows
    apply Judges.guardBind
    rw [bind_assoc]
    apply Judges.call
    intro _
    rw [pure_bind]
    apply Judges.pure
  · intro heard ended
    simp only [agreedListing_eq_ok, hasName_iff]
    constructor
    · rintro ⟨_, _, rfl, _, _, rfl, _, _, rfl, first, _, rfl, second, _, rfl, _, ⟨hsame, rfl⟩, hrow,
        _, _, rfl, rfl, rfl⟩
      exact ⟨hsame, hrow, rfl⟩
    · intro h
      unfold Accepted at h
      split at h
      · obtain ⟨hsame, hrow, rfl⟩ := h
        exact ⟨_, _, rfl, _, _, rfl, _, _, rfl, _, _, rfl, _, _, rfl, _, ⟨hsame, rfl⟩, hrow, _, _,
          rfl, rfl, rfl⟩
      · contradiction
      · contradiction
      · contradiction

theorem judges_rootRotation (history : RootHistory) :
    Judges m site.runner w (Scenario.rootRotation.script site.repo site.primary stand)
      (body m site stand history .rootRotation) (Accepted m site stand history .rootRotation) := by
  simp only [body, rootRotation]
  apply Judges.congr
  · apply Judges.enter
    apply Judges.call
    intro _
    apply Judges.enter
    apply Judges.announce
    apply Judges.listTargets
    intro _
    apply Judges.listKeys
    intro enumerated
    apply Judges.check
    intro row
    apply Judges.turn
    intro _ ended
    apply Judges.enter
    apply Judges.announce
    apply Judges.publish
    intro _
    apply Judges.add
    intro _
    apply Judges.publish
    intro _
    apply Judges.listBoth
    intro first second
    apply Judges.check
    intro targets
    apply Judges.guard
    apply Judges.pure
  · intro heard ended
    simp only [singleRoot_eq_ok, agreedListing_eq_ok]
    constructor
    · rintro ⟨_, _, rfl, _, _, rfl, enumerated, _, rfl, row, hrow, _, listed, synced, _, rfl, _,
        hturned, _, _, rfl, _, _, rfl, _, _, rfl, first, _, rfl, second, _, rfl, _,
        ⟨hsame, rfl⟩, hcount, rfl, rfl⟩
      exact ⟨row, hrow, hturned, hsame, hcount⟩
    · intro h
      unfold Accepted at h
      split at h
      · contradiction
      · obtain ⟨row, hrow, hturned, hsame, hcount⟩ := h
        exact ⟨_, _, rfl, _, _, rfl, _, _, rfl, row, hrow, _, _, _, _, rfl, _, hturned, _, _, rfl,
          _, _, rfl, _, _, rfl, _, _, rfl, _, _, rfl, _, ⟨hsame, rfl⟩, hcount, rfl, rfl⟩
      · contradiction
      · contradiction

theorem judges_rootRerotation (history : RootHistory) :
    Judges m site.runner w (Scenario.rootRerotation.script site.repo site.primary stand)
      (body m site stand history .rootRerotation)
      (Accepted m site stand history .rootRerotation) := by
  simp only [body, rootRerotation]
  apply Judges.congr
  · apply Judges.enter
    apply Judges.announce
    apply Judges.listTargets
    intro _
    apply Judges.listKeys
    intro enumerated
    apply Judges.refuse
    apply Judges.turn
    intro _ ended
    apply Judges.enter
    apply Judges.announce
    apply Judges.publish
    intro _
    apply Judges.publish
    intro _
    apply Judges.listBoth
    intro first second
    apply Judges.check
    intro targets
    apply Judges.guard
    apply Judges.pure
  · intro heard ended
    simp only [agreedListing_eq_ok, hasName_iff, List.isEmpty_iff, List.map_eq_nil_iff]
    constructor
    · rintro ⟨_, _, rfl, enumerated, _, rfl, hrows, _, listed, synced, _, rfl, _, hturned, _, _,
        rfl, _, _, rfl, first, _, rfl, second, _, rfl, _, ⟨hsame, rfl⟩, hrow, rfl, rfl⟩
      exact ⟨_, rfl, hrows, hturned, hsame, hrow⟩
    · intro h
      unfold Accepted at h
      split at h
      · contradiction
      · contradiction
      · obtain ⟨_, rfl, hrows, hturned, hsame, hrow⟩ := h
        exact ⟨_, _, rfl, _, _, rfl, hrows, _, _, _, _, rfl, _, hturned, _, _, rfl, _, _, rfl, _, _,
          rfl, _, _, rfl, _, ⟨hsame, rfl⟩, hrow, rfl, rfl⟩
      · contradiction

/-- A body passes exactly if all calls of its script go well and show what the scenario asks for,
and then it ends with the history that they show. -/
theorem body_passes_iff (m : Machine σ) (site : Site) (stand : Stand) (history ended : RootHistory)
    (scenario : Scenario) (s : Session σ) :
    (∃ t, run (body m site stand history scenario) s = (.ok ended, t)) ↔
      ∃ heard, HearsAll m site.runner (scenario.script site.repo site.primary stand) s.world heard ∧
        Accepted m site stand history scenario heard ended := by
  cases scenario with
  | basicRepo => exact judges_basicRepo history s rfl ended
  | rootRotation => exact judges_rootRotation history s rfl ended
  | rootRerotation => exact judges_rootRerotation history s rfl ended

end Trial
end TrustTrial
