import TrustTrial.Notary.Record
import TrustTrial.Proofs.Dicts
import TrustTrial.Proofs.JsonReading
import TrustTrial.RootDocument

/-!
# TrustTrial.Proofs.Filing

What the notary writes to a file is what it reads from it later: the state of a repository, the keys
of a client and the staged additions, whatever texts they are made of. The root document that it
writes for its clients says the same about the repository to a trial.
-/

namespace TrustTrial

open Text (maxWord)

namespace Notary

open Json

theorem mapM_map_some {α β γ : Type} {f : β → Option γ} {g : α → β} {k : α → γ} {xs : List α}
    (h : ∀ x ∈ xs, f (g x) = some (k x)) : (xs.map g).mapM f = some (xs.map k) := by
  induction xs with
  | nil => rfl
  | cons x xs ih =>
    have hrest := ih fun y hy => h y (List.mem_cons_of_mem _ hy)
    rw [List.map_cons, List.mapM_cons, h x List.mem_cons_self, hrest]
    rfl

theorem toDict?_map {α β : Type} {f : Value → Option β} {g : α → Value} {k : α → β} (d : Dict α)
    (h : ∀ e ∈ d.toList, f (g e.2) = some (k e.2)) :
    toDict? f (ofDict g d) = some (d.map k) := by
  have hentries : (d.toList.map fun e => (e.1, g e.2)).mapM
      (fun e => (f e.2).map (fun b => (e.1, b))) = some (d.toList.map fun e => (e.1, k e.2)) :=
    mapM_map_some fun e he => by simp [h e he]
  simp only [toDict?, ofDict, hentries]
  rw [← Dict.toList_map k d, Dict.ofList_toList]

theorem toDict?_ofDict {α : Type} {f : Value → Option α} {g : α → Value} (d : Dict α)
    (h : ∀ e ∈ d.toList, f (g e.2) = some e.2) : toDict? f (ofDict g d) = some d := by
  rw [toDict?_map (k := id) d h]
  exact congrArg some (Dict.ext (by simp [Dict.toList_map]))

theorem toList?_map {α β : Type} {f : Value → Option β} {g : α → Value} {k : α → β} {xs : List α}
    (h : ∀ x ∈ xs, f (g x) = some (k x)) : toList? f (.list (xs.map g)) = some (xs.map k) :=
  mapM_map_some h

theorem toList?_texts (xs : List String) : toList? Value.text? (texts xs) = some xs := by
  have h : toList? Value.text? (.list (xs.map .text)) = some (xs.map id) :=
    toList?_map fun _ _ => rfl
  rwa [List.map_id] at h

/-! ## Shapes of parts -/

theorem readsEntries_map {α : Type} {shape : Shape} (hshape : ∀ name, keptName shape name = name)
    {f g : α → Value} {es : List (String × α)} (h : ∀ e ∈ es, Reads shape (f e.2) (g e.2)) :
    ReadsEntries shape (es.map fun e => (e.1, f e.2)) (es.map fun e => (e.1, g e.2)) := by
  induction es with
  | nil => exact readsEntries_nil shape
  | cons e es ih =>
    have hrest := ih fun d hd => h d (List.mem_cons_of_mem _ hd)
    have hcons : ReadsEntries shape ((e.1, f e.2) :: es.map fun e => (e.1, f e.2))
        ((keptName shape e.1, g e.2) :: es.map fun e => (e.1, g e.2)) :=
      readsEntries_cons (h e List.mem_cons_self) hrest
    rwa [hshape] at hcons

theorem reads_ofDict {α : Type} {shape : Shape} (hshape : ∀ name, keptName shape name = name)
    {f g : α → Value} {d : Dict α} (h : ∀ e ∈ d.toList, Reads shape (f e.2) (g e.2)) :
    Reads (.dictOf shape) (ofDict f d) (ofDict g d) :=
  reads_object rfl (readsEntries_map hshape h)

theorem reads_map {α : Type} {shape : Shape} {f : α → Value} {xs : List α}
    (h : ∀ x ∈ xs, Reads shape (f x) (f x)) :
    Reads (.listOf shape) (.list (xs.map f)) (.list (xs.map f)) := by
  have hitems : ReadsItems shape (xs.map f) ((xs.map f).map id) := by
    refine readsItems_map fun v hv => ?_
    obtain ⟨x, hx, rfl⟩ := List.mem_map.1 hv
    exact h x hx
  rw [List.map_id] at hitems
  exact reads_list rfl hitems

theorem reads_texts (xs : List String) : Reads (.listOf .text) (texts xs) (texts xs) :=
  reads_map fun x _ => reads_text x

theorem plain_texts (xs : List String) : (texts xs).Plain := by
  simp [texts, Value.Plain, plainItems_iff]

theorem levels_texts (xs : List String) : (texts xs).levels ≤ 1 := by
  rw [texts, Value.levels, Nat.add_le_add_iff_right, itemLevels_le]
  intro v hv
  obtain ⟨x, -, rfl⟩ := List.mem_map.1 hv
  exact Nat.le.refl

theorem plain_ofDict {α : Type} {f : α → Value} {d : Dict α} (h : ∀ e ∈ d.toList, (f e.2).Plain) :
    (ofDict f d).Plain := by
  rw [ofDict, Value.Plain, plainFields_iff]
  intro e he
  obtain ⟨e', he', rfl⟩ := List.mem_map.1 he
  exact h e' he'

theorem levels_ofDict {α : Type} {f : α → Value} {d : Dict α} {n : Nat}
    (h : ∀ a, (f a).levels ≤ n) : (ofDict f d).levels ≤ n + 1 := by
  rw [ofDict, Value.levels, Nat.add_le_add_iff_right, fieldLevels_le]
  intro e he
  obtain ⟨e', -, rfl⟩ := List.mem_map.1 he
  exact h e'.2

/-! ## Files -/

/-- A value that was written is read back, if its parts are. -/
theorem readAs_pretty {α : Type} {shape : Shape} {ofValue? : Value → Option α} {v w : Value} {a : α}
    (hread : Reads shape v w) (hv : v.Plain) (hlevels : v.levels ≤ maxDepth)
    (ha : ofValue? w = some a) : readAs shape ofValue? v.pretty = .ok a := by
  simp only [readAs, read_pretty hread hv hlevels, ha]

theorem Target.reads (t : Target) : Reads Target.shape t.toValue t.toValue :=
  reads_record (readsFields_known rfl rfl (reads_text _) (readsFields_known rfl rfl (reads_natural _)
    (readsFields_nil rfl)))

theorem LocalKey.reads (k : LocalKey) : Reads LocalKey.shape k.toValue k.toValue :=
  reads_record (readsFields_known rfl rfl (reads_text _) (readsFields_known rfl rfl (reads_text _)
    (readsFields_known rfl rfl (reads_text _) (readsFields_nil rfl))))

theorem Staged.reads (s : Staged) : Reads Staged.shape s.toValue s.toValue :=
  reads_record (readsFields_known rfl rfl (reads_text _) (readsFields_known rfl rfl s.target.reads
    (readsFields_nil rfl)))

theorem Record.reads (r : Record) : Reads Record.shape r.toValue r.toValue := by
  refine reads_record (readsFields_known rfl rfl ?_ (readsFields_known rfl rfl ?_
    (readsFields_known rfl rfl ?_ (readsFields_known rfl rfl (reads_natural _)
      (readsFields_nil rfl)))))
  · exact reads_ofDict (fun _ => rfl) fun e _ => reads_text e.2
  · exact reads_ofDict (fun _ => rfl) fun e _ => reads_texts e.2
  · exact reads_ofDict (fun _ => rfl) fun e _ => e.2.reads

theorem Target.plain {t : Target} (h : t.size ≤ maxWord) : t.toValue.Plain :=
  ⟨trivial, h, trivial⟩

theorem Target.levels (t : Target) : t.toValue.levels = 1 := by
  simp [toValue, Value.levels, fieldLevels]

theorem Target.ofValue?_toValue (t : Target) : ofValue? t.toValue = some t := rfl

/-- All its numbers fit into 64 bits. -/
structure Record.Bounded (r : Record) : Prop where
  version : r.version ≤ maxWord
  targets : ∀ e ∈ r.targets.toList, e.2.size ≤ maxWord

theorem Record.ofValue?_toValue (r : Record) : ofValue? r.toValue = some r := by
  have hkeys := toDict?_ofDict (f := Value.text?) (g := Value.text) r.keys fun _ _ => rfl
  have hroles := toDict?_ofDict (f := toList? Value.text?) (g := texts) r.roles
    fun e _ => toList?_texts e.2
  have htargets := toDict?_ofDict r.targets fun e _ => e.2.ofValue?_toValue
  simp only [ofValue?, toValue, Value.field?, lastField, String.reduceEq, if_true,
    if_false, hkeys, hroles, htargets]

theorem readAs_record {r : Record} (h : r.Bounded) :
    readAs Record.shape Record.ofValue? r.toValue.pretty = .ok r := by
  refine readAs_pretty r.reads ?_ ?_ r.ofValue?_toValue
  · exact ⟨plain_ofDict fun _ _ => trivial, plain_ofDict fun e _ => plain_texts e.2,
      plain_ofDict fun e he => Target.plain (h.targets e he), h.version, trivial⟩
  · have hkeys := levels_ofDict (f := Value.text) (d := r.keys) (n := 0) fun a => Nat.le.refl
    have hroles := levels_ofDict (d := r.roles) levels_texts
    have htargets := levels_ofDict (d := r.targets) fun t => Nat.le_of_eq t.levels
    simp only [Record.toValue, Value.levels, fieldLevels, maxDepth]
    omega

/-- A list of records of one form. -/
theorem readAs_list {α : Type} {shape : Shape} {ofValue? : Value → Option α} {toValue : α → Value}
    {xs : List α} (hread : ∀ x ∈ xs, Reads shape (toValue x) (toValue x))
    (hplain : ∀ x ∈ xs, (toValue x).Plain) (hlevels : ∀ x ∈ xs, (toValue x).levels ≤ 2)
    (h : ∀ x ∈ xs, ofValue? (toValue x) = some x) :
    readAs (.listOf shape) (toList? ofValue?) (Value.list (xs.map toValue)).pretty = .ok xs := by
  refine readAs_pretty (reads_map hread) ?_ ?_ ((toList?_map (k := id) h).trans (by simp))
  · rw [Value.Plain, plainItems_iff]
    intro v hv
    obtain ⟨x, hx, rfl⟩ := List.mem_map.1 hv
    exact hplain x hx
  · have hitems : itemLevels (xs.map toValue) ≤ 2 := by
      rw [itemLevels_le]
      intro v hv
      obtain ⟨x, hx, rfl⟩ := List.mem_map.1 hv
      exact hlevels x hx
    simp only [Value.levels, maxDepth]
    omega

theorem readAs_keys (keys : List LocalKey) :
    readAs (.listOf LocalKey.shape) (toList? LocalKey.ofValue?)
      (Value.list (keys.map LocalKey.toValue)).pretty = .ok keys := by
  refine readAs_list (fun k _ => k.reads) (fun _ _ => ⟨trivial, trivial, trivial, trivial⟩) ?_
    fun _ _ => rfl
  intro k _
  simp [LocalKey.toValue, Value.levels, fieldLevels]

theorem readAs_staged {staged : List Staged} (h : ∀ s ∈ staged, s.target.size ≤ maxWord) :
    readAs (.listOf Staged.shape) (toList? Staged.ofValue?)
      (Value.list (staged.map Staged.toValue)).pretty = .ok staged := by
  refine readAs_list (fun s _ => s.reads) (fun s hs => ⟨trivial, Target.plain (h s hs), trivial⟩) ?_
    fun _ _ => rfl
  intro s _
  simp [Staged.toValue, Value.levels, fieldLevels, s.target.levels]

/-! ## Root documents -/

/-- What a root document says about one key. -/
def keyEntry (e : String × String) : Value :=
  .object [
    ("keytype", .text "ecdsa"),
    ("keyval", .object [("public", .text (e.2 ++ ":" ++ e.1))])]

/-- What a root document says about one role. -/
def roleEntry (ids : List String) : Value :=
  .object [("keyids", texts ids), ("threshold", .natural 1)]

/-- What a trial reads of it. -/
def roleSeen (ids : List String) : Value := .object [("keyids", texts ids)]

theorem Record.rootDocument_eq (r : Record) :
    r.rootDocument = .object [
      ("signatures", .list []),
      ("signed", .object [
        ("_type", .text "Root"),
        ("keys", .object (r.keys.toList.map fun e => (e.1, keyEntry e))),
        ("roles", ofDict roleEntry r.roles),
        ("version", .natural r.version)])] := rfl

theorem reads_rootDocument (r : Record) :
    Reads RootDocument.shape r.rootDocument (.object [("signed", .object [
      ("keys", .object (r.keys.toList.map fun e => (e.1, keyEntry e))),
      ("roles", ofDict roleSeen r.roles)])]) := by
  refine reads_record (readsFields_unknown rfl rfl (readsFields_known rfl rfl (reads_record
    (readsFields_unknown rfl rfl (readsFields_known rfl rfl ?_ (readsFields_known rfl rfl ?_
      (readsFields_unknown rfl rfl (readsFields_nil rfl)))))) (readsFields_nil rfl)))
  · exact reads_object rfl (readsEntries_anything _)
  · refine reads_ofDict (f := roleEntry) (fun _ => rfl) fun e _ => ?_
    exact reads_record (readsFields_known rfl rfl (reads_texts e.2) (readsFields_unknown rfl rfl
      (readsFields_nil rfl)))

theorem plain_rootDocument {r : Record} (h : r.version ≤ maxWord) : r.rootDocument.Plain := by
  refine ⟨trivial, ⟨trivial, ?_, ?_, h, trivial⟩, trivial⟩
  · rw [Value.Plain, plainFields_iff]
    intro f hf
    obtain ⟨e, -, rfl⟩ := List.mem_map.1 hf
    exact ⟨trivial, ⟨trivial, trivial⟩, trivial⟩
  · exact plain_ofDict fun e _ => ⟨plain_texts e.2, Nat.le_of_ble_eq_true rfl, trivial⟩

theorem levels_rootDocument (r : Record) : r.rootDocument.levels ≤ maxDepth := by
  have hkeys : fieldLevels (r.keys.toList.map fun e => (e.1, keyEntry e)) ≤ 2 := by
    rw [fieldLevels_le]
    intro f hf
    obtain ⟨e, -, rfl⟩ := List.mem_map.1 hf
    simp [keyEntry, Value.levels, fieldLevels]
  have hrole : ∀ ids, (roleEntry ids).levels ≤ 2 := by
    intro ids
    have htexts := levels_texts ids
    simp only [roleEntry, Value.levels, fieldLevels]
    omega
  have hroles := levels_ofDict (d := r.roles) hrole
  simp only [r.rootDocument_eq, Value.levels, fieldLevels, itemLevels, maxDepth]
  omega

/-- What a trial takes a root document to say. -/
def Record.seen (r : Record) : RootDocument where
  keys := ⟨r.keys.toList.map fun e => (e.1, keyEntry e), by
    rw [List.pairwise_map]
    exact r.keys.ascending⟩
  roles := r.roles

theorem keyIds?_roleSeen (ids : List String) : RootDocument.keyIds? (roleSeen ids) = some ids :=
  toList?_texts ids

/-- A trial reads the root document as it is meant. -/
theorem read_rootDocument {r : Record} (h : r.version ≤ maxWord) :
    RootDocument.read r.rootDocument.pretty = .ok r.seen := by
  have hroles : (r.roles.toList.map fun e => (e.1, roleSeen e.2)).mapM
      (fun role => (RootDocument.keyIds? role.2).map (fun ids => (role.1, ids))) =
        some (r.roles.toList.map id) :=
    mapM_map_some fun e _ => by simp [keyIds?_roleSeen]
  have hkeys : Dict.ofList (r.keys.toList.map fun e => (e.1, keyEntry e)) = r.seen.keys :=
    Dict.ofList_toList r.seen.keys
  rw [List.map_id] at hroles
  simp only [RootDocument.read, read_pretty (reads_rootDocument r) (plain_rootDocument h)
    (levels_rootDocument r), RootDocument.ofValue?, Value.field?, lastField, String.reduceEq,
    if_true, if_false, ofDict, hroles, hkeys, Dict.ofList_toList]
  rfl

theorem load_of_readText {t : Disk.Tree} {here : Disk.Location} {dir repo text : String}
    {document : RootDocument} (htext : t.readText here (RootDocument.path dir repo) = .ok text)
    (hread : RootDocument.read text = .ok document) :
    RootDocument.load t here dir repo = .ok document := by
  unfold RootDocument.load
  simp only [htext, hread]

@[simp] theorem keyCount_seen (r : Record) : r.seen.keyCount = r.keys.size := by
  simp [RootDocument.keyCount, Record.seen, Dict.size]

@[simp] theorem hasKey_seen (r : Record) (id : String) :
    r.seen.hasKey id = r.keys.contains id := by
  rw [RootDocument.hasKey, Dict.contains_eq_any, Dict.contains_eq_any, Record.seen, List.any_map]
  rfl

@[simp] theorem trustedKeys_seen (r : Record) (role : String) :
    r.seen.trustedKeys role = (r.roles.get? role).getD [] := rfl

end Notary
end TrustTrial
