import TrustTrial.Proofs.Keyholding

/-!
# TrustTrial.Proofs.Hindrances

Requests of which some writing may fail. A command may then stop halfway: it has made keys without
using them, or it has saved a record and not the files of its client. `Orderly.touched` says what
can have become of a record by then: either nothing, or all that the command makes of it, since a
record is saved at once and everything else that is written lies elsewhere.

An `Annals` is a history with such requests in it. Who has done what to a record cannot be told from
its pages any more, but its keys are kept all the same (`Annals.upheld`).
-/

namespace TrustTrial
namespace Notary

open Disk

/-! ## Steps -/

section Writing

variable {here : Location} {path : String} {d e : Desk} {f : Tree.Contents} {made : Nat}

/-- What could not be written is not there. -/
theorem Desk.Charted.not_written (hd : d.Charted f made) {v : Json.Value} {trouble : Trouble}
    (h : Step.run (Notary.writeFile here path v) d = (.error trouble, e)) : e.Charted f made := by
  obtain ⟨hregular, hcontent⟩ := Tree.makeDirectories_keeps hd.regular here (Path.parent path)
  simp only [Step.run, Notary.writeFile] at h
  split at h
  · rename_i fault u hmake
    rw [hmake] at hregular hcontent
    cases h
    exact ⟨hregular, hcontent.trans hd.content, hd.made⟩
  · rename_i u hmake
    rw [hmake] at hregular hcontent
    split at h
    · cases h
      exact ⟨hregular, hcontent.trans hd.content, hd.made⟩
    · cases h

theorem Desk.Charted.not_removed (hd : d.Charted f made) {trouble : Trouble}
    (h : Step.run (Notary.removeFile here path) d = (.error trouble, e)) : e.Charted f made := by
  simp only [Step.run, Notary.removeFile] at h
  split at h
  · cases h
    exact hd
  · cases h

end Writing

namespace Step

variable {α β : Type} {x : Step α} {f : α → Step β} {d e : Desk} {t : Tree} {made : Nat}
  {place : Location} {P : Desk → Prop}

/-- A step that leaves the file at a place alone and makes no key, whether it succeeds or not. -/
def Spares (place : Location) (x : Step α) : Prop :=
  ∀ d e result f made, d.Charted f made → run x d = (result, e) →
    ∃ f', e.Charted f' made ∧ f' place = f place

theorem Quiet.spares (hx : Quiet x) : Spares place x :=
  fun _ _ _ f _ hd hrun => ⟨f, hd.quiet hx hrun, rfl⟩

theorem Spares.bind (hx : Spares place x) (hf : ∀ a, Spares place (f a)) :
    Spares place (x >>= f) := by
  intro d e result g made hd h
  rw [run_bind] at h
  split at h
  · rename_i hrun
    cases h
    exact hx _ _ _ _ _ hd hrun
  · rename_i a d' hrun
    obtain ⟨g', hd', hsame⟩ := hx _ _ _ _ _ hd hrun
    obtain ⟨g'', he, hsame'⟩ := hf a _ _ _ _ _ hd' h
    exact ⟨g'', he, hsame'.trans hsame⟩

theorem spares_writeFile {here : Location} {path : String} (hne : place ≠ Path.place here path)
    (v : Json.Value) : Spares place (writeFile here path v) := by
  intro d e result g made hd h
  cases result with
  | error trouble => exact ⟨g, hd.not_written h, rfl⟩
  | ok _ => exact ⟨_, (hd.writeFile h).2, Tree.Contents.put_of_ne hne _ _⟩

theorem spares_removeFile {here : Location} {path : String} (hne : place ≠ Path.place here path) :
    Spares place (removeFile here path) := by
  intro d e result g made hd h
  cases result with
  | error trouble => exact ⟨g, hd.not_removed h, rfl⟩
  | ok _ => exact ⟨_, hd.removeFile h, Tree.Contents.put_of_ne hne _ _⟩

/-- A step that leaves a desk in a certain way, whatever comes of it. -/
def Leaves (x : Step α) (d : Desk) (P : Desk → Prop) : Prop :=
  ∀ result e, run x d = (result, e) → P e

theorem Quiet.leaves (hx : Quiet x) (hd : d.At t made) (hP : ∀ e : Desk, e.At t made → P e) :
    Leaves x d P := fun _ _ hrun => hP _ (hx.at hrun hd)

theorem Quiet.leaves_bind (hx : Quiet x) (hd : d.At t made) (hP : ∀ e : Desk, e.At t made → P e)
    (hf : ∀ a e, run x d = (.ok a, e) → e.At t made → Leaves (f a) e P) :
    Leaves (x >>= f) d P := by
  intro result e h
  rw [run_bind] at h
  split at h
  · rename_i hrun
    cases h
    exact hP _ (hx.at hrun hd)
  · rename_i a d' hrun
    exact hf a d' hrun (hx.at hrun hd) _ _ h

theorem Leaves.bind_quiet (hx : Leaves x d P) (hf : ∀ a, Quiet (f a))
    (hP : ∀ d e : Desk, P d → e.At d.disk d.made → P e) : Leaves (x >>= f) d P := by
  intro result e h
  rw [run_bind] at h
  split at h
  · rename_i hrun
    cases h
    exact hx _ _ hrun
  · rename_i a d' hrun
    exact hP _ _ (hx _ _ hrun) ((hf a).at h (.refl d'))

end Step

open Step

/-! ## Commands -/

/-- What may have become of a record while an errand was run: nothing, or what the errand makes of
it. -/
structure Touched (keyName : Nat → String) (shelf : Location) (repo : String) (old : Option Record)
    (made : Nat) (errand : Errand) (t : Tree) (made' : Nat) : Prop where
  regular : t.Regular
  record : ∃ new, t.content (recordPlace shelf repo) = new.map Record.printed ∧
    (new = old ∧ made ≤ made' ∨ Rewrites keyName made (recordName repo) old errand new made')

/-- The same for a desk. -/
def Desk.Touched (e : Desk) (keyName : Nat → String) (shelf : Location) (repo : String)
    (old : Option Record) (made : Nat) (errand : Errand) : Prop :=
  Notary.Touched keyName shelf repo old made errand e.disk e.made

theorem Desk.Touched.at {keyName : Nat → String} {shelf : Location} {repo : String}
    {old : Option Record} {made : Nat} {errand : Errand} {d e : Desk}
    (h : d.Touched keyName shelf repo old made errand) (he : e.At d.disk d.made) :
    e.Touched keyName shelf repo old made errand := by
  rw [Desk.Touched, he.disk, he.made]
  exact h

section Commands

variable {o : Office} {keyName : Nat → String} {server trustDir repo repo' : String}
  {shelf home : Location} {t : Tree} {d : Desk} {f : Tree.Contents} {made made' : Nat}
  {old : Option Record} {errand : Errand} {α : Type} {x : Step α}

theorem Desk.Charted.untouched {e : Desk} (he : e.Charted f made')
    (hold : f (recordPlace shelf repo) = old.map Record.printed) (hmade : made ≤ made') :
    e.Touched keyName shelf repo old made errand := by
  refine ⟨he.regular, old, ?_, .inl ⟨rfl, he.made ▸ hmade⟩⟩
  rw [he.content, hold]

theorem Step.Spares.leaves (hx : Spares (recordPlace shelf repo) x) (hd : d.Charted f made')
    (hold : f (recordPlace shelf repo) = old.map Record.printed) (hmade : made ≤ made') :
    Leaves x d (fun e => e.Touched keyName shelf repo old made errand) := by
  intro result e h
  obtain ⟨f', he, hsame⟩ := hx _ _ _ _ _ hd h
  exact he.untouched (hsame.trans hold) hmade

/-- A command that saves a record, and then writes other files only. -/
theorem leaves_saveRecord (ha : Addressed t o.here server trustDir shelf home)
    (hd : d.Charted f made') (hold : f (recordPlace shelf repo) = old.map Record.printed)
    (hmade : made ≤ made') {r : Record}
    (hsame : recordName repo' = recordName repo → Tree.refuse? (recordPath server repo') = none →
      Rewrites keyName made (recordName repo) old errand (some r) made')
    (hx : Spares (recordPlace shelf repo) x) :
    Leaves (do saveRecord o.here server repo' r; x) d
      (fun e => e.Touched keyName shelf repo old made errand) := by
  intro result e h
  rw [run_bind] at h
  split at h
  · rename_i hsave
    cases h
    exact (hd.not_written hsave).untouched hold hmade
  · rename_i hsave
    obtain ⟨hrefuse, hsaved⟩ := hd.writeFile hsave
    rw [ha.recordPath] at hsaved
    obtain ⟨f', he, hspared⟩ := hx _ _ _ _ _ hsaved h
    by_cases hname : recordName repo' = recordName repo
    · refine ⟨he.regular, some r, ?_, .inr (he.made ▸ hsame hname hrefuse)⟩
      rw [he.content, hspared, recordPlace_congr hname, Tree.Contents.put_self]
      rfl
    · refine he.untouched ?_ hmade
      rw [hspared, Tree.Contents.put_of_ne fun he => hname (recordPlace_inj he).symm, hold]

section Sparing

variable (ha : Addressed t o.here server trustDir shelf home) (hapart : Apart shelf home)

include ha hapart

theorem spares_saveKeys (keys : List LocalKey) :
    Spares (recordPlace shelf repo) (saveKeys o.here trustDir keys) :=
  spares_writeFile (ha.keysPath ▸ hapart.ne_keysPlace (prefix_recordPlace shelf repo)) _

theorem spares_saveStaged (hrepo : Path.Straight repo') (staged : List Staged) :
    Spares (recordPlace shelf repo) (saveStaged o.here trustDir repo' staged) :=
  spares_writeFile
    (ha.stagedPath hrepo ▸ hapart.ne_stagedPlace (prefix_recordPlace shelf repo) repo') _

theorem spares_removeStaged (hrepo : Path.Straight repo') :
    Spares (recordPlace shelf repo) (removeFile o.here (stagedPath trustDir repo')) :=
  spares_removeFile
    (ha.stagedPath hrepo ▸ hapart.ne_stagedPlace (prefix_recordPlace shelf repo) repo')

theorem spares_sync (hrepo : Path.Straight repo') (r : Record) :
    Spares (recordPlace shelf repo) (sync o.here trustDir repo' r) :=
  spares_writeFile
    (ha.rootPath hrepo ▸ hapart.ne_rootPlace (prefix_recordPlace shelf repo) repo') _

end Sparing

theorem run_makeKeys (roles : List String) (r : Record) (keys : List LocalKey) (d : Desk) :
    ∃ made e, Step.run (makeKeys o repo roles r keys) d = (.ok made, e) := by
  induction roles generalizing r keys d with
  | nil => exact ⟨_, _, rfl⟩
  | cons role roles ih => exact ih _ _ _

section Leaving

variable (ha : Addressed t o.here server trustDir shelf home) (hapart : Apart shelf home)
  (ht : t.Regular) (hrepo : Path.Straight repo') (hd : d.At t made)
  (hold : t.content (recordPlace shelf repo) = old.map Record.printed)

include ht hold in
theorem untouched_of_at (keyName : Nat → String) (made : Nat) (errand : Errand) (e : Desk)
    (he : e.At t made) : e.Touched keyName shelf repo old made errand :=
  (he.charted ht).untouched hold (Nat.le_refl made)

include ha hapart ht hrepo hd hold

theorem leaves_init :
    Leaves (init o server trustDir repo') d
      (fun e => e.Touched o.keyName shelf repo old made (.init repo')) := by
  have huntouched := untouched_of_at ht hold o.keyName made (.init repo')
  refine (quiet_requirePassphrase _ o).leaves_bind hd huntouched fun _ _ _ hd => ?_
  refine (quiet_requirePassphrase _ o).leaves_bind hd huntouched fun _ _ _ hd => ?_
  refine (quiet_requirePassphrase _ o).leaves_bind hd huntouched fun _ _ _ hd => ?_
  refine (quiet_present _ _).leaves_bind hd huntouched fun found d' hfound hd' => ?_
  obtain ⟨hleads, -⟩ := Prod.mk.inj (run_present.symm.trans hfound)
  dsimp only
  split
  · exact (quiet_throw_bind _ _).leaves hd' huntouched
  · rename_i hmissing
    refine (quiet_loadKeys _ _).leaves_bind hd' huntouched fun keys d'' _ hd'' => ?_
    obtain ⟨⟨r, keys'⟩, e, hmake⟩ := run_makeKeys firstRoles .empty keys d''
    obtain ⟨hmade, he⟩ := (hd''.charted ht).makeKeys hmake
    intro result e' h
    rw [run_bind, hmake] at h
    refine leaves_saveRecord ha he hold (Nat.le_add_right made 4) (fun hname hrefuse => ?_) ?_ _ _ h
    · refine .founded hname ?_ hmade
      have hnone : t.content (recordPlace shelf repo') = none := by
        rw [← ha.recordPath repo']
        refine Tree.content_of_not_leads ht ha.server_steady (proper_recordName repo') hrefuse ?_
        rw [← Except.ok.inj hleads, hd.disk] at hmissing
        exact Bool.not_eq_true _ ▸ hmissing
      rw [recordPlace_congr hname, hold] at hnone
      exact Option.map_eq_none_iff.1 hnone
    · exact (spares_saveKeys ha hapart _).bind fun _ =>
        (spares_sync ha hapart hrepo _).bind fun _ => (quiet_print _).spares

theorem leaves_add (name file : String) :
    Leaves (add o trustDir repo' name file) d
      (fun e => e.Touched keyName shelf repo old made (.add repo' name file)) := by
  refine Spares.leaves (f := t.content) ?_ (hd.charted ht) hold (Nat.le_refl made)
  refine (quiet_look _).spares.bind fun data => (quiet_loadStaged _ _ _).spares.bind fun staged => ?_
  exact (spares_saveStaged ha hapart hrepo _).bind fun _ => (quiet_print _).spares

theorem leaves_publish :
    Leaves (publish o server trustDir repo') d
      (fun e => e.Touched keyName shelf repo old made (.publish repo')) := by
  have huntouched := untouched_of_at ht hold keyName made (.publish repo')
  refine (quiet_loadRecord _ _ _).leaves_bind hd huntouched fun r d₁ hr hd₁ => ?_
  refine (quiet_loadStaged _ _ _).leaves_bind hd₁ huntouched fun staged d₂ _ hd₂ => ?_
  have htold := tellsRecord_of_loadRecord hr
  rw [hd.disk, ha.recordPath] at htold
  split
  · refine Spares.leaves (f := t.content) ?_ (hd₂.charted ht) hold (Nat.le_refl made)
    exact (quiet_print _).spares.bind fun _ => spares_sync ha hapart hrepo _
  · refine (quiet_countOn r).leaves_bind hd₂ huntouched fun _ d₃ hcount hd₃ => ?_
    refine leaves_saveRecord ha (hd₃.charted ht) hold (Nat.le_refl made) (fun hname _ => ?_) ?_
    · rw [recordPlace_congr hname, hold] at htold
      exact .published staged hname (tellsRecord_map htold) (run_countOn_ok hcount).1
    · exact (spares_removeStaged ha hapart hrepo).bind fun _ =>
        (quiet_print _).spares.bind fun _ => spares_sync ha hapart hrepo _

theorem leaves_list :
    Leaves (list o server trustDir repo') d
      (fun e => e.Touched keyName shelf repo old made (.list repo')) := by
  refine Spares.leaves (f := t.content) ?_ (hd.charted ht) hold (Nat.le_refl made)
  refine (quiet_loadRecord _ _ _).spares.bind fun r => ?_
  refine (spares_sync ha hapart hrepo r).bind fun _ => ?_
  refine Quiet.spares ((quiet_print _).bind fun _ => (quiet_look _).bind fun stale => ?_)
  split
  · exact quiet_pure _
  · exact quiet_print _

/-- A rotation, once the record has been found and can be counted on. -/
theorem leaves_replace {r : Record} {role : String} {after : String → Record}
    (keys : String → List LocalKey) (htold : TellsRecord (t.content (recordPlace shelf repo')) r)
    (hversion : r.version < Text.maxWord)
    (hafter : after (o.keyName made) = r.rotated role (o.keyName made)) :
    Leaves (do
        let id ← newKey o
        saveRecord o.here server repo' (after id)
        saveKeys o.here trustDir (keys id)
        sync o.here trustDir repo' (after id)) d
      (fun e => e.Touched o.keyName shelf repo old made (.rotate repo' role)) := by
  obtain ⟨-, he⟩ := (hd.charted ht).newKey (o := o) rfl
  intro result e h
  rw [run_bind] at h
  refine leaves_saveRecord ha he hold (Nat.le_succ made) (fun hname _ => ?_) ?_ _ _ h
  · rw [recordPlace_congr hname, hold] at htold
    rw [hd.made, hafter]
    exact .rotated hname (tellsRecord_map htold) hversion
  · exact (spares_saveKeys ha hapart _).bind fun _ => spares_sync ha hapart hrepo _

theorem leaves_rotateRoot :
    Leaves (rotateRoot o server trustDir repo') d
      (fun e => e.Touched o.keyName shelf repo old made (.rotate repo' "root")) := by
  have huntouched := untouched_of_at ht hold o.keyName made (.rotate repo' "root")
  refine (quiet_loadRecord _ _ _).leaves_bind hd huntouched fun r d₁ hr hd₁ => ?_
  refine (quiet_loadKeys _ _).leaves_bind hd₁ huntouched fun keys d₂ _ hd₂ => ?_
  refine (quiet_requirePassphrase _ o).leaves_bind hd₂ huntouched fun _ d₃ _ hd₃ => ?_
  refine (quiet_countOn r).leaves_bind hd₃ huntouched fun _ d₄ hcount hd₄ => ?_
  have htold := tellsRecord_of_loadRecord hr
  rw [hd.disk, ha.recordPath] at htold
  exact leaves_replace ha hapart ht hrepo hd₄ hold _ htold (run_countOn_ok hcount).1 rfl

theorem leaves_rotateOther {role : String} (hrole : role ≠ "root") (managed : Bool) :
    Leaves (rotateOther o server trustDir repo' role managed) d
      (fun e => e.Touched o.keyName shelf repo old made (.rotate repo' role)) := by
  have huntouched := untouched_of_at ht hold o.keyName made (.rotate repo' role)
  refine (quiet_loadRecord _ _ _).leaves_bind hd huntouched fun r d₁ hr hd₁ => ?_
  refine (quiet_loadKeys _ _).leaves_bind hd₁ huntouched fun keys d₂ _ hd₂ => ?_
  refine (quiet_countOn r).leaves_bind hd₂ huntouched fun _ d₃ hcount hd₃ => ?_
  have htold := tellsRecord_of_loadRecord hr
  rw [hd.disk, ha.recordPath] at htold
  have hrotated : ((r.dropKeys role).trust role (o.keyName made)).bump =
      r.rotated role (o.keyName made) := congrArg Record.bump (if_neg hrole).symm
  exact leaves_replace ha hapart ht hrepo hd₃ hold _ htold (run_countOn_ok hcount).1 hrotated

theorem leaves_rotate (role : String) (flags : List String) :
    Leaves (rotate o server trustDir repo' role flags) d
      (fun e => e.Touched o.keyName shelf repo old made (.rotate repo' role)) := by
  have huntouched := untouched_of_at ht hold o.keyName made (.rotate repo' role)
  unfold rotate
  dsimp only
  split
  · rename_i hroot
    subst hroot
    refine quiet_readLine.leaves_bind hd huntouched fun answer d₁ _ hd₁ => ?_
    split
    · refine (quiet_login _ _).leaves_bind hd₁ huntouched fun _ d₂ _ hd₂ => ?_
      exact (leaves_rotateRoot ha hapart ht hrepo hd₂ hold).bind_quiet (fun _ => quiet_print _)
        fun _ _ => Desk.Touched.at
    · exact (quiet_throw_bind _ _).leaves hd₁ huntouched
  · rename_i hrole
    refine (quiet_login _ _).leaves_bind hd huntouched fun _ d₁ _ hd₁ => ?_
    exact (leaves_rotateOther ha hapart ht hrepo hd₁ hold hrole _).bind_quiet
      (fun _ => quiet_print _) fun _ _ => Desk.Touched.at

omit hrepo in
theorem leaves_command {words : List String}
    (hrepo : ∀ repo' ∈ (Errand.ofWords words).repo?, Path.Straight repo') :
    Leaves (command o server trustDir words) d
      (fun e => e.Touched o.keyName shelf repo old made (Errand.ofWords words)) := by
  have huntouched := untouched_of_at ht hold o.keyName made (Errand.ofWords words)
  unfold command
  split
  case h_1 =>
    refine (quiet_login _ _).leaves_bind hd huntouched fun _ d₁ _ hd₁ => ?_
    exact leaves_init ha hapart ht (hrepo _ rfl) hd₁ hold
  case h_2 => exact leaves_add ha hapart ht (hrepo _ rfl) hd hold _ _
  case h_3 =>
    refine (quiet_login _ _).leaves_bind hd huntouched fun _ d₁ _ hd₁ => ?_
    exact leaves_publish ha hapart ht (hrepo _ rfl) hd₁ hold
  case h_4 =>
    refine (quiet_login _ _).leaves_bind hd huntouched fun _ d₁ _ hd₁ => ?_
    exact leaves_list ha hapart ht (hrepo _ rfl) hd₁ hold
  case h_5 => exact (quiet_verify o server _ _ _).leaves hd huntouched
  case h_6 => exact (quiet_listKeys o trustDir).leaves hd huntouched
  case h_7 => exact leaves_rotate ha hapart ht (hrepo _ rfl) hd hold _ _
  case h_8 => exact (quiet_throw _).leaves hd huntouched

end Leaving

end Commands

/-! ## Requests -/

section Requests

variable {keyName : Nat → String} {shelf home : Location} {repo : String} {request : Request}
  {t u : Store} {reply : Reply} {old : Option Record}

theorem leaves_answer (keyName : Nat → String) (h : Orderly shelf request home t)
    (ht : t.disk.Regular)
    (hold : t.disk.content (recordPlace shelf repo) = old.map Record.printed) :
    Leaves (answer (officeOf keyName request) request.args) (deskOf request t.made t.disk)
      (fun e => e.Touched keyName shelf repo old t.made (errandOf request)) := by
  have hd : (deskOf request t.made t.disk).At t.disk t.made := ⟨rfl, rfl⟩
  have huntouched := untouched_of_at ht hold keyName t.made (errandOf request)
  unfold answer
  split
  · exact (quiet_plumbing _ _ _).leaves hd huntouched
  · rename_i f words _ hread
    have hfst := congrArg Prod.fst hread
    have hsnd := congrArg Prod.snd hread
    split
    · exact (quiet_throw _).leaves hd huntouched
    · rename_i trustDir htrustDir
      refine (quiet_openServer _ _).leaves_bind hd huntouched fun server d hopen hd' => ?_
      have ha := h.directed trustDir server _ d (by rw [hfst]; exact htrustDir) hd.disk
        (by rw [hfst]; exact hopen)
      have hstraight := h.straight
      rw [errandOf, hsnd] at hstraight ⊢
      exact (leaves_command (o := officeOf keyName request) ha h.apart ht hd' hold
        hstraight).bind_quiet (fun _ => quiet_pure _) fun _ _ => Desk.Touched.at

/-- Whatever comes of a request, a record is as it was, or as the request makes it. -/
theorem Orderly.touched (h : Orderly shelf request home t) (ht : t.disk.Regular)
    (hold : t.disk.content (recordPlace shelf repo) = old.map Record.printed)
    (hrun : run keyName request t.made t.disk = (reply, u.made, u.disk)) :
    Touched keyName shelf repo old t.made (errandOf request) u.disk u.made := by
  cases hanswer : Step.run (answer (officeOf keyName request) request.args)
      (deskOf request t.made t.disk) with
  | mk result d =>
    have htouched := leaves_answer keyName h ht hold _ _ hanswer
    simp only [officeOf, deskOf] at hanswer
    have hended : (run keyName request t.made t.disk).2 = (d.made, d.disk) := by
      cases result <;> simp only [run, hanswer]
    rw [hrun] at hended
    obtain ⟨hmade, hdisk⟩ := Prod.mk.inj hended
    rw [hmade, hdisk]
    exact htouched

end Requests

/-! ## Histories -/

/-- The pages of a history in which writing may fail. -/
inductive Annals (keyName : Nat → String) (shelf : Location) (s : Store) : List Page → Store → Prop
    where
  | nil : Annals keyName shelf s [] s
  | snoc {pages : List Page} {t u : Store} {request : Request} {home : Location} {reply : Reply} :
      Annals keyName shelf s pages t → Orderly shelf request home t →
      run keyName request t.made t.disk = (reply, u.made, u.disk) →
      Annals keyName shelf s (pages ++ [⟨request, home, t, reply.exit = some 0⟩]) u

/-- A store in which a record, if it is there, has the keys that it should have. -/
structure Store.Upheld (keyName : Nat → String) (shelf : Location) (repo : String) (s : Store) :
    Prop where
  regular : s.disk.Regular
  record : ∃ record : Option Record,
    s.disk.content (recordPlace shelf repo) = record.map Record.printed ∧
      ∀ r ∈ record, ∃ roles roots, r.Keeps keyName s.made roles roots

section Histories

variable {keyName : Nat → String} {shelf home : Location} {repo : String} {s t u : Store}
  {pages : List Page} {request : Request} {reply : Reply} {r : Record}

theorem Chronicle.annals (h : Chronicle keyName shelf s pages t) :
    Annals keyName shelf s pages t := by
  induction h with
  | nil => exact .nil
  | snoc _ hfair hrun ih => exact ih.snoc hfair.toOrderly hrun

theorem upheld_of_none (hs : s.disk.Regular)
    (hempty : s.disk.content (recordPlace shelf repo) = none) : s.Upheld keyName shelf repo :=
  ⟨hs, none, hempty, nofun⟩

/-- A record that can be read is the one that is kept. -/
theorem Store.Upheld.keeps (h : s.Upheld keyName shelf repo)
    (htells : TellsRecord (s.disk.content (recordPlace shelf repo)) r) :
    s.disk.content (recordPlace shelf repo) = some r.printed ∧
      ∃ roles roots, r.Keeps keyName s.made roles roots := by
  obtain ⟨record, hcontent, hkeeps⟩ := h.record
  rw [hcontent] at htells
  obtain rfl := tellsRecord_map htells
  exact ⟨hcontent, hkeeps r rfl⟩

theorem Rewrites.made_le {made made' : Nat} {name : String} {old new : Option Record}
    {errand : Errand} (h : Rewrites keyName made name old errand new made') : made ≤ made' := by
  cases h <;> omega

/-- What an errand makes of a record has the keys that it should have. -/
theorem Rewrites.keeps (hinj : Function.Injective keyName) {made made' : Nat} {name : String}
    {old new : Option Record} {errand : Errand}
    (h : Rewrites keyName made name old errand new made')
    (hold : ∀ r ∈ old, ∃ roles roots, r.Keeps keyName made roles roots) :
    ∀ r ∈ new, ∃ roles roots, r.Keeps keyName made' roles roots := by
  cases old with
  | none =>
    rintro r rfl
    cases h with
    | founded _ _ hmake => exact ⟨_, _, keeps_founded hinj hmake⟩
    | published _ _ hnone => cases hnone
    | rotated _ hnone => cases hnone
  | some old =>
    obtain ⟨roles, roots, hkeeps⟩ := hold old rfl
    obtain ⟨-, new, rfl, hkeeps'⟩ := hkeeps.step hinj h
    rintro _ ⟨⟩
    exact ⟨_, _, hkeeps'⟩

/-- One request more, which may be stopped halfway. -/
theorem Store.Upheld.step (hinj : Function.Injective keyName) (h : t.Upheld keyName shelf repo)
    (horderly : Orderly shelf request home t)
    (hrun : run keyName request t.made t.disk = (reply, u.made, u.disk)) :
    u.Upheld keyName shelf repo ∧ t.made ≤ u.made := by
  obtain ⟨old, hold, hkeeps⟩ := h.record
  obtain ⟨hregular, new, hnew, ⟨rfl, hmade⟩ | hwrites⟩ := horderly.touched h.regular hold hrun
  · refine ⟨⟨hregular, new, hnew, fun r hr => ?_⟩, hmade⟩
    obtain ⟨roles, roots, hkept⟩ := hkeeps r hr
    exact ⟨roles, roots, hkept.mono hmade fun _ => Iff.rfl⟩
  · exact ⟨⟨hregular, new, hnew, hwrites.keeps hinj hkeeps⟩, hwrites.made_le⟩

/-- The keys of a record are kept, whatever fails. -/
theorem Annals.upheld (hinj : Function.Injective keyName) (hs : s.Upheld keyName shelf repo)
    (h : Annals keyName shelf s pages t) : t.Upheld keyName shelf repo ∧ s.made ≤ t.made := by
  induction h with
  | nil => exact ⟨hs, Nat.le_refl _⟩
  | snoc _ horderly hrun ih =>
    obtain ⟨hupheld, hmade⟩ := ih.1.step hinj horderly hrun
    exact ⟨hupheld, Nat.le_trans ih.2 hmade⟩

end Histories

end Notary
end TrustTrial
