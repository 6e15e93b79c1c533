import TrustTrial.Notary.Command

/-!
# TrustTrial.Proofs.Refusals

Every command of the notary first looks and then changes: what can be refused is refused before the
first file is written and the first key is made. So a run that fails for another reason than the
writing itself has changed nothing (`careful_answer`).

Steps that only look are `Quiet`, steps that can only fail by writing are `Firm`, and a quiet step
before a firm one is `Careful`.
-/

namespace TrustTrial
namespace Notary

open Disk

/-- The troubles of changing files. -/
def Trouble.writing : Trouble → Bool
  | .notWritten _ _ => true
  | .notMade _ => true
  | .notRemoved _ => true
  | _ => false

theorem Trouble.exit_ne_zero (trouble : Trouble) : trouble.exit ≠ 0 := by
  unfold Trouble.exit
  split <;> decide

/-- The files and the number of keys. -/
structure Desk.At (d : Desk) (t : Tree) (made : Nat) : Prop where
  disk : d.disk = t
  made : d.made = made

theorem Desk.At.refl (d : Desk) : d.At d.disk d.made := ⟨rfl, rfl⟩

namespace Step

variable {α β : Type} {x : Step α} {f : α → Step β}

/-- A step that changes no file and makes no key, whether it succeeds or not. -/
def Quiet (x : Step α) : Prop := ∀ d, (run x d).2.At d.disk d.made

/-- A step that fails only by writing. -/
def Firm (x : Step α) : Prop :=
  ∀ d e trouble, run x d = (.error trouble, e) → trouble.writing = true

/-- A step that has changed nothing if it fails for another reason than writing. -/
def Careful (x : Step α) : Prop :=
  ∀ d e trouble, run x d = (.error trouble, e) → trouble.writing = false → e.At d.disk d.made

theorem run_bind_ok {d e : Desk} {b : β} (h : run (x >>= f) d = (.ok b, e)) :
    ∃ a d', run x d = (.ok a, d') ∧ run (f a) d' = (.ok b, e) := by
  rw [run_bind] at h
  split at h
  · cases h
  · rename_i a d' hx
    exact ⟨a, d', hx, h⟩

theorem Quiet.at (h : Quiet x) {d e : Desk} {result : Except Trouble α}
    (hrun : run x d = (result, e)) {t : Tree} {made : Nat} (hd : d.At t made) : e.At t made := by
  have he := h d
  rw [hrun, hd.disk, hd.made] at he
  exact he

/-! ## Sequences -/

theorem Quiet.bind (hx : Quiet x) (hf : ∀ a, Quiet (f a)) : Quiet (x >>= f) := by
  intro d
  have hd := hx d
  rw [run_bind]
  split
  · rename_i d' hrun
    rw [hrun] at hd
    exact hd
  · rename_i a d' hrun
    rw [hrun] at hd
    exact (hf a).at rfl hd

theorem Firm.bind (hx : Firm x) (hf : ∀ a, Firm (f a)) : Firm (x >>= f) := by
  intro d e trouble h
  rw [run_bind] at h
  split at h
  · rename_i hrun
    cases h
    exact hx d e trouble hrun
  · rename_i a d' _
    exact hf a d' e trouble h

theorem Quiet.careful (h : Quiet x) : Careful x := fun d _ _ hrun _ => h.at hrun (.refl d)

theorem Firm.careful (h : Firm x) : Careful x := by
  intro d e trouble hrun hwriting
  rw [h d e trouble hrun] at hwriting
  cases hwriting

theorem Quiet.careful_bind (hx : Quiet x) (hf : ∀ a, Careful (f a)) : Careful (x >>= f) := by
  intro d e trouble h hwriting
  rw [run_bind] at h
  split at h
  · rename_i hrun
    cases h
    exact hx.at hrun (.refl d)
  · rename_i a d' hrun
    have hd := hx.at hrun (.refl d)
    have he := hf a d' e trouble h hwriting
    rw [hd.disk, hd.made] at he
    exact he

theorem Careful.bind (hx : Careful x) (hf : ∀ a, Firm (f a)) : Careful (x >>= f) := by
  intro d e trouble h hwriting
  rw [run_bind] at h
  split at h
  · rename_i hrun
    cases h
    exact hx d e trouble hrun hwriting
  · rename_i a d' _
    rw [hf a d' e trouble h] at hwriting
    cases hwriting

/-! ## Single steps -/

theorem quiet_pure (a : α) : Quiet (pure a : Step α) := fun d => .refl d

theorem quiet_throw (trouble : Trouble) : Quiet (throw trouble : Step α) := fun d => .refl d

theorem quiet_throw_bind (trouble : Trouble) (f : α → Step β) : Quiet (throw trouble >>= f) :=
  fun d => .refl d

theorem quiet_look (g : Tree → Except Trouble α) : Quiet (look g) := fun d => .refl d

theorem quiet_print (text : String) : Quiet (print text) := fun _ => ⟨rfl, rfl⟩

theorem quiet_printBytes (data : ByteArray) : Quiet (printBytes data) := fun _ => ⟨rfl, rfl⟩

theorem quiet_readLine : Quiet readLine := by
  intro d
  simp only [run, readLine]
  split <;> exact ⟨rfl, rfl⟩

theorem quiet_readRest : Quiet readRest := fun _ => ⟨rfl, rfl⟩

theorem firm_pure (a : α) : Firm (pure a : Step α) := fun _ _ _ h => nomatch h

theorem firm_print (text : String) : Firm (print text) := fun _ _ _ h => nomatch h

theorem firm_newKey (o : Office) : Firm (newKey o) := fun _ _ _ h => nomatch h

theorem firm_writeFile (here : Location) (path : String) (v : Json.Value) :
    Firm (writeFile here path v) := by
  intro d e trouble h
  simp only [run, writeFile] at h
  split at h
  · cases h
    rfl
  · split at h
    · cases h
      rfl
    · cases h

theorem firm_removeFile (here : Location) (path : String) : Firm (removeFile here path) := by
  intro d e trouble h
  simp only [run, removeFile] at h
  split at h
  · cases h
    rfl
  · cases h

end Step

open Step

/-! ## Reading -/

section Reading

variable {α : Type} (here : Location) (shape : Json.Shape) (ofValue? : Json.Value → Option α)
  (path server trustDir repo name : String) (o : Office)

theorem quiet_present : Quiet (present here path) := quiet_look _

theorem quiet_readFile : Quiet (readFile here shape ofValue? path) := by
  refine (quiet_look _).bind fun text => ?_
  split
  · exact quiet_throw _
  · exact quiet_pure _

theorem quiet_readList : Quiet (readList here shape ofValue? path) := by
  refine (quiet_present here path).bind fun found => ?_
  split
  · exact quiet_readFile here _ _ path
  · exact quiet_pure _

theorem quiet_loadRecord : Quiet (loadRecord here server repo) := by
  refine (quiet_present here _).bind fun found => ?_
  split
  · exact quiet_readFile here _ _ _
  · exact quiet_throw _

theorem quiet_loadKeys : Quiet (loadKeys here trustDir) := quiet_readList here _ _ _

theorem quiet_loadStaged : Quiet (loadStaged here trustDir repo) := quiet_readList here _ _ _

theorem quiet_login : Quiet (login here server) := by
  refine (quiet_present here _).bind fun found => ?_
  split
  · refine (quiet_readFile here _ _ _).bind fun expected => ?_
    refine quiet_readLine.bind fun username => quiet_readLine.bind fun password => ?_
    split
    · exact quiet_pure _
    · exact quiet_throw _
  · exact quiet_pure _

theorem quiet_openServer (f : Flags) : Quiet (openServer here f) := by
  unfold openServer
  split
  · split
    · exact quiet_throw _
    · exact quiet_pure _
  · split
    · exact quiet_throw _
    · refine (quiet_look _).bind fun text => ?_
      split
      · exact quiet_throw _
      · split
        · exact quiet_throw _
        · exact quiet_pure _
  · exact quiet_throw _

theorem quiet_countOn (r : Record) : Quiet (countOn r) := by
  unfold countOn
  split
  · exact quiet_pure _
  · exact quiet_throw _

theorem quiet_requirePassphrase : Quiet (requirePassphrase o name) := by
  unfold requirePassphrase
  split
  · exact quiet_throw _
  · split
    · exact quiet_throw _
    · exact quiet_pure _

end Reading

/-! ## Commands -/

section Commands

variable (o : Office) (server trustDir repo : String)

theorem firm_makeKeys (roles : List String) (r : Record) (keys : List LocalKey) :
    Firm (makeKeys o repo roles r keys) := by
  induction roles generalizing r keys with
  | nil => exact firm_pure _
  | cons role roles ih => exact (firm_newKey o).bind fun id => ih _ _

/-- What is done once everything that a command wants has been found, and counted. -/
theorem firm_found (r : Record) (keys : List LocalKey) (line : String) :
    Firm (do
      saveRecord o.here server repo r
      saveKeys o.here trustDir keys
      sync o.here trustDir repo r
      say line) :=
  (firm_writeFile _ _ _).bind fun _ => (firm_writeFile _ _ _).bind fun _ =>
    (firm_writeFile _ _ _).bind fun _ => firm_print _

theorem firm_stage (staged : List Staged) (line : String) :
    Firm (do
      saveStaged o.here trustDir repo staged
      say line) :=
  (firm_writeFile _ _ _).bind fun _ => firm_print _

theorem firm_release (r : Record) (line : String) :
    Firm (do
      saveRecord o.here server repo r
      removeFile o.here (stagedPath trustDir repo)
      say line
      sync o.here trustDir repo r) :=
  (firm_writeFile _ _ _).bind fun _ => (firm_removeFile _ _).bind fun _ =>
    (firm_print _).bind fun _ => firm_writeFile _ _ _

theorem firm_idle (r : Record) (line : String) :
    Firm (do
      say line
      sync o.here trustDir repo r) :=
  (firm_print _).bind fun _ => firm_writeFile _ _ _

theorem firm_look (g : Tree → α) : Firm (look fun disk => .ok (g disk)) := fun _ _ _ h => nomatch h

theorem firm_show (r : Record) :
    Firm (do
      sync o.here trustDir repo r
      print (lines targetHeader)
      let stale ← look (fun disk => .ok (isStale disk o.here server trustDir))
      if stale then pure () else print (lines (targetRows r.targets))) := by
  refine (firm_writeFile _ _ _).bind fun _ => (firm_print _).bind fun _ => ?_
  refine (firm_look _).bind fun stale => ?_
  split
  · exact firm_pure _
  · exact firm_print _

theorem firm_replace (r : String → Record) (keys : String → List LocalKey) :
    Firm (do
      let id ← newKey o
      saveRecord o.here server repo (r id)
      saveKeys o.here trustDir (keys id)
      sync o.here trustDir repo (r id)) :=
  (firm_newKey o).bind fun _ => (firm_writeFile _ _ _).bind fun _ =>
    (firm_writeFile _ _ _).bind fun _ => firm_writeFile _ _ _

theorem careful_init : Careful (init o server trustDir repo) := by
  refine (quiet_requirePassphrase _ o).careful_bind fun _ => ?_
  refine (quiet_requirePassphrase _ o).careful_bind fun _ => ?_
  refine (quiet_requirePassphrase _ o).careful_bind fun _ => ?_
  refine (quiet_present _ _).careful_bind fun found => ?_
  dsimp only
  split
  · exact (quiet_throw_bind _ _).careful
  · refine (quiet_loadKeys _ _).careful_bind fun keys => Firm.careful ?_
    exact (firm_makeKeys o repo _ _ _).bind fun made => firm_found o server trustDir repo _ _ _

theorem careful_add (name file : String) : Careful (add o trustDir repo name file) := by
  refine (quiet_look _).careful_bind fun data => ?_
  exact (quiet_loadStaged _ _ _).careful_bind fun staged =>
    (firm_stage o trustDir repo _ _).careful

theorem careful_publish : Careful (publish o server trustDir repo) := by
  refine (quiet_loadRecord _ _ _).careful_bind fun r => ?_
  refine (quiet_loadStaged _ _ _).careful_bind fun staged => ?_
  split
  · exact (firm_idle o trustDir repo _ _).careful
  · exact (quiet_countOn r).careful_bind fun _ =>
      (firm_release o server trustDir repo _ _).careful

theorem careful_list : Careful (list o server trustDir repo) :=
  (quiet_loadRecord _ _ _).careful_bind fun r => (firm_show o server trustDir repo r).careful

theorem quiet_verify (name file : String) : Quiet (verify o server repo name file) := by
  refine (quiet_loadRecord _ _ _).bind fun r => ?_
  split
  · exact quiet_throw _
  · refine (quiet_look _).bind fun data => ?_
    split
    · exact quiet_pure _
    · exact quiet_throw _

theorem quiet_listKeys : Quiet (listKeys o trustDir) :=
  (quiet_loadKeys _ _).bind fun _ => (quiet_print _).bind fun _ => quiet_print _

theorem careful_rotateRoot : Careful (rotateRoot o server trustDir repo) := by
  refine (quiet_loadRecord _ _ _).careful_bind fun r => ?_
  refine (quiet_loadKeys _ _).careful_bind fun keys => ?_
  refine (quiet_requirePassphrase _ o).careful_bind fun _ => ?_
  exact (quiet_countOn r).careful_bind fun _ =>
    (firm_replace o server trustDir repo _ _).careful

theorem careful_rotateOther (role : String) (managed : Bool) :
    Careful (rotateOther o server trustDir repo role managed) := by
  refine (quiet_loadRecord _ _ _).careful_bind fun r => ?_
  refine (quiet_loadKeys _ _).careful_bind fun keys => ?_
  exact (quiet_countOn r).careful_bind fun _ =>
    (firm_replace o server trustDir repo _ _).careful

theorem careful_rotate (role : String) (flags : List String) :
    Careful (rotate o server trustDir repo role flags) := by
  unfold rotate
  dsimp only
  split
  · refine quiet_readLine.careful_bind fun answer => ?_
    split
    · refine (quiet_login _ _).careful_bind fun _ => ?_
      exact (careful_rotateRoot o server trustDir repo).bind fun _ => firm_print _
    · exact (quiet_throw_bind _ _).careful
  · refine (quiet_login _ _).careful_bind fun _ => ?_
    exact (careful_rotateOther o server trustDir repo role _).bind fun _ => firm_print _

theorem careful_command (words : List String) : Careful (command o server trustDir words) := by
  unfold command
  split
  · exact (quiet_login _ _).careful_bind fun _ => careful_init o server trustDir _
  · exact careful_add o trustDir _ _ _
  · exact (quiet_login _ _).careful_bind fun _ => careful_publish o server trustDir _
  · exact (quiet_login _ _).careful_bind fun _ => careful_list o server trustDir _
  · exact (quiet_verify o server _ _ _).careful
  · exact (quiet_listKeys o trustDir).careful
  · exact careful_rotate o server trustDir _ _ _
  · exact (quiet_throw _).careful

theorem quiet_plumbing (f : Flags) (words : List String) : Quiet (plumbing o f words) := by
  unfold plumbing
  split
  · exact quiet_readRest.bind fun input => (quiet_printBytes _).bind fun _ => quiet_pure _
  · exact (quiet_print _).bind fun _ => quiet_pure _
  · exact (quiet_print _).bind fun _ => quiet_pure _
  · refine (quiet_print _).bind fun _ => ?_
    split
    · exact quiet_throw _
    · exact quiet_pure _
  · split
    · exact quiet_throw _
    · refine (quiet_printBytes _).bind fun _ => quiet_readRest.bind fun input => ?_
      exact (quiet_print _).bind fun _ => quiet_pure _
  · exact quiet_throw _

/-- A run that fails for another reason than writing has changed nothing. -/
theorem careful_answer (args : List String) : Careful (answer o args) := by
  unfold answer
  split
  · exact (quiet_plumbing o _ _).careful
  · split
    · exact (quiet_throw _).careful
    · refine (quiet_openServer _ _).careful_bind fun server => ?_
      exact (careful_command o server _ _).bind fun _ => firm_pure _

end Commands

end Notary
end TrustTrial
