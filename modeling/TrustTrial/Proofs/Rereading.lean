import TrustTrial.Proofs.Filing

/-!
# TrustTrial.Proofs.Rereading

What was written is read as nothing else. A number of more than 64 bits does not come back at all,
so a file with such a number cannot be read; but whatever is read of a file is what was written to
it, without any bound on its numbers. `Settles` is to `Reads` what partial is to total correctness.
-/

namespace TrustTrial
namespace Json

/-! ## Printed tokens -/

theorem isRightBracket_printed (t : Token) : isRightBracket t.printed = isRightBracket t := by
  unfold Token.printed
  split <;> rfl

theorem printed_list (vs : List Value) :
    (Value.list vs).tokens.map Token.printed =
      .leftBracket :: ((itemTokens vs).map Token.printed).drop 1 ++ [.rightBracket] := by
  simp [tokens_list, Token.printed]

theorem printed_items (v : Value) (vs : List Value) :
    (itemTokens (v :: vs)).map Token.printed =
      .comma :: (v.tokens.map Token.printed ++ (itemTokens vs).map Token.printed) := by
  simp [itemTokens, Token.printed]

theorem printed_object (fs : List (String × Value)) :
    (Value.object fs).tokens.map Token.printed =
      .leftBrace :: ((entryTokens fs).map Token.printed).drop 1 ++ [.rightBrace] := by
  simp [tokens_object, Token.printed]

theorem printed_entries (name : String) (v : Value) (fs : List (String × Value)) :
    (entryTokens ((name, v) :: fs)).map Token.printed =
      .comma :: nameToken name :: .colon ::
        (v.tokens.map Token.printed ++ (entryTokens fs).map Token.printed) := by
  simp [entryTokens, fieldTokens_eq, Token.printed, nameToken]

theorem printed_head (v : Value) :
    ∃ t ts, v.tokens.map Token.printed = t :: ts ∧ isRightBracket t = false := by
  obtain ⟨t, ts, htokens, ht, -⟩ := tokens_head v
  exact ⟨t.printed, ts.map Token.printed, by rw [htokens, List.map_cons],
    (isRightBracket_printed t).trans ht⟩

/-! ## Items -/

/-- If the printed tokens of one value are read at a shape, they are read as another one. -/
def Settles (shape : Shape) (v w : Value) : Prop :=
  ∀ fuel depth rest out,
    readValue fuel depth shape (v.tokens.map Token.printed ++ rest) = .ok out → out = (w, rest)

/-- The same for the items of a list after the first one. -/
def SettlesItems (shape : Shape) (vs ws : List Value) : Prop :=
  ∀ fuel depth rest out,
    readItems fuel depth shape false
      ((itemTokens vs).map Token.printed ++ .rightBracket :: rest) = .ok out →
        out = (.list ws, rest)

theorem settlesItems_nil (shape : Shape) : SettlesItems shape [] [] := by
  intro fuel depth rest out h
  cases fuel with
  | zero => simp [readItems] at h
  | succ fuel =>
    rw [itemTokens, List.map_nil, List.nil_append, readItems] at h
    exact (Except.ok.inj h).symm

theorem settlesItems_cons {shape : Shape} {v w : Value} {vs ws : List Value}
    (hv : Settles shape v w) (hvs : SettlesItems shape vs ws) :
    SettlesItems shape (v :: vs) (w :: ws) := by
  intro fuel depth rest out h
  cases fuel with
  | zero => simp [readItems] at h
  | succ fuel =>
    obtain ⟨t, ts, htokens, ht⟩ := printed_head v
    have hfirst := hv fuel depth ((itemTokens vs).map Token.printed ++ .rightBracket :: rest)
    rw [printed_items, List.cons_append, List.append_assoc] at h
    rw [htokens, List.cons_append] at hfirst h
    rw [readItems_comma ht] at h
    split at h
    · cases h
    · rename_i hx
      cases hfirst _ hx
      split at h
      · cases h
      · rename_i hxs
        cases hvs fuel depth rest _ hxs
        exact (Except.ok.inj h).symm
      · rename_i hother hxs
        cases hvs fuel depth rest _ hxs
        exact (hother _ rfl).elim

theorem settlesItems_map {α : Type} {shape : Shape} {f : α → Value} {xs : List α}
    (h : ∀ x ∈ xs, Settles shape (f x) (f x)) : SettlesItems shape (xs.map f) (xs.map f) := by
  induction xs with
  | nil => exact settlesItems_nil shape
  | cons x xs ih =>
    exact settlesItems_cons (h x List.mem_cons_self) (ih fun y hy => h y (List.mem_cons_of_mem _ hy))

theorem settles_list {shape : Shape} {vs ws : List Value} (h : SettlesItems shape vs ws) :
    Settles (.listOf shape) (.list vs) (.list ws) := by
  intro fuel depth rest out hread
  rw [printed_list, List.cons_append, List.cons_append, List.append_assoc,
    List.singleton_append] at hread
  cases fuel with
  | zero => simp [readValue] at hread
  | succ fuel =>
    simp only [readValue] at hread
    split at hread
    · cases hread
    · apply h fuel (depth - 1) rest
      rw [← hread]
      cases fuel with
      | zero => rw [readItems, readItems]
      | succ fuel =>
        cases vs with
        | nil => rw [itemTokens, List.map_nil, List.drop_nil, List.nil_append, readItems, readItems]
        | cons v vs =>
          obtain ⟨t, ts, htokens, ht⟩ := printed_head v
          rw [printed_items, List.drop_one, List.tail_cons, htokens, List.cons_append,
            List.cons_append, List.cons_append, ← readItems_first ht]

/-! ## Entries -/

/-- The same as `SettlesItems` for the fields of an object. -/
def SettlesEntries (shape : Shape) (fs gs : List (String × Value)) : Prop :=
  ∀ fuel depth rest out,
    readEntries fuel depth shape false
      ((entryTokens fs).map Token.printed ++ .rightBrace :: rest) = .ok out →
        out = (.object gs, rest)

theorem settlesEntries_nil (shape : Shape) : SettlesEntries shape [] [] := by
  intro fuel depth rest out h
  cases fuel with
  | zero => simp [readEntries] at h
  | succ fuel =>
    rw [entryTokens, List.map_nil, List.nil_append, readEntries] at h
    exact (Except.ok.inj h).symm

theorem settlesEntries_cons {shape : Shape} {name : String} {v w : Value}
    {fs gs : List (String × Value)} (hv : Settles shape v w) (hfs : SettlesEntries shape fs gs) :
    SettlesEntries shape ((name, v) :: fs) ((keptName shape name, w) :: gs) := by
  intro fuel depth rest out h
  cases fuel with
  | zero => simp [readEntries] at h
  | succ fuel =>
    rw [printed_entries, List.cons_append, List.cons_append, List.cons_append, List.append_assoc,
      readEntries_comma] at h
    split at h
    · cases h
    · rename_i hx
      cases hv fuel depth _ _ hx
      split at h
      · cases h
      · rename_i hxs
        cases hfs fuel depth rest _ hxs
        exact (Except.ok.inj h).symm
      · rename_i hother hxs
        cases hfs fuel depth rest _ hxs
        exact (hother _ rfl).elim

theorem settlesEntries_map {α : Type} {shape : Shape}
    (hshape : ∀ name, keptName shape name = name) {f : α → Value} {es : List (String × α)}
    (h : ∀ a, Settles shape (f a) (f a)) :
    SettlesEntries shape (es.map fun e => (e.1, f e.2)) (es.map fun e => (e.1, f e.2)) := by
  induction es with
  | nil => exact settlesEntries_nil shape
  | cons e es ih =>
    have hcons : SettlesEntries shape ((e.1, f e.2) :: es.map fun e => (e.1, f e.2))
        ((keptName shape e.1, f e.2) :: es.map fun e => (e.1, f e.2)) :=
      settlesEntries_cons (h e.2) ih
    rwa [hshape] at hcons

theorem settles_dict {shape : Shape} {fs gs : List (String × Value)}
    (h : SettlesEntries shape fs gs) : Settles (.dictOf shape) (.object fs) (.object gs) := by
  intro fuel depth rest out hread
  rw [printed_object, List.cons_append, List.cons_append, List.append_assoc,
    List.singleton_append] at hread
  cases fuel with
  | zero => simp [readValue] at hread
  | succ fuel =>
    simp only [readValue] at hread
    split at hread
    · cases hread
    · apply h fuel (depth - 1) rest
      rw [← hread]
      cases fuel with
      | zero => rw [readEntries, readEntries]
      | succ fuel =>
        cases fs with
        | nil =>
          rw [entryTokens, List.map_nil, List.drop_nil, List.nil_append, readEntries, readEntries]
        | cons f fs =>
          obtain ⟨name, v⟩ := f
          rw [printed_entries, List.drop_one, List.tail_cons]
          simp only [List.cons_append, readEntries_first]

theorem settles_ofDict {α : Type} {shape : Shape} (hshape : ∀ name, keptName shape name = name)
    {f : α → Value} (h : ∀ a, Settles shape (f a) (f a)) (d : Dict α) :
    Settles (.dictOf shape) (Notary.ofDict f d) (Notary.ofDict f d) :=
  settles_dict (settlesEntries_map hshape h)

/-! ## Scalars -/

theorem settles_text (s : String) : Settles .text (.text s) (.text s) := by
  intro fuel depth rest out h
  cases fuel with
  | zero => simp [readValue] at h
  | succ fuel =>
    rw [Value.tokens, List.map_singleton, List.singleton_append, Token.printed, readValue] at h
    · exact (Except.ok.inj h).symm
    · simp

theorem settles_natural (n : Nat) : Settles .natural (.natural n) (.natural n) := by
  intro fuel depth rest out h
  cases fuel with
  | zero => simp [readValue] at h
  | succ fuel =>
    rw [Value.tokens, List.map_singleton, List.singleton_append, Token.printed, readValue] at h
    cases hprinted : printedNumber n with
    | error fault => simp [hprinted, readScalar] at h
    | ok v =>
      cases v with
      | natural m =>
        rw [eq_of_printedNumber hprinted] at hprinted
        simp only [hprinted, readScalar] at h
        exact (Except.ok.inj h).symm
      | _ => simp [hprinted, readScalar] at h

/-! ## Records -/

/-- The rest of a record's fields is read as `gs` or not at all, if those in `read` were met
before. -/
def SettlesFields (fields : List (String × Shape)) (read fs gs : List (String × Value)) : Prop :=
  ∀ fuel depth rest out,
    readFields fuel depth fields read false
      ((entryTokens fs).map Token.printed ++ .rightBrace :: rest) = .ok out →
        out = (.object gs, rest)

theorem settlesFields_nil {fields : List (String × Shape)} {read gs : List (String × Value)}
    (h : inOrder read fields = some gs) : SettlesFields fields read [] gs := by
  intro fuel depth rest out hread
  cases fuel with
  | zero => simp [readFields] at hread
  | succ fuel =>
    rw [entryTokens, List.map_nil, List.nil_append, readFields] at hread
    simp only [h] at hread
    exact (Except.ok.inj hread).symm

theorem settlesFields_known {fields : List (String × Shape)} {shape : Shape} {name : String}
    {v w : Value} {read fs gs : List (String × Value)} (hshape : fieldShape name fields = some shape)
    (hnew : lastField name read = none) (hv : Settles shape v w)
    (hfs : SettlesFields fields ((name, w) :: read) fs gs) :
    SettlesFields fields read ((name, v) :: fs) gs := by
  intro fuel depth rest out h
  cases fuel with
  | zero => simp [readFields] at h
  | succ fuel =>
    rw [printed_entries, List.cons_append, List.cons_append, List.cons_append, List.append_assoc,
      readFields_comma fuel depth fields hnew, hshape] at h
    dsimp only at h
    split at h
    · cases h
    · rename_i hx
      cases hv fuel depth _ _ hx
      exact hfs fuel depth rest _ h

theorem settles_record {fields : List (String × Shape)} {fs gs : List (String × Value)}
    (h : SettlesFields fields [] fs gs) : Settles (.record fields) (.object fs) (.object gs) := by
  intro fuel depth rest out hread
  rw [printed_object, List.cons_append, List.cons_append, List.append_assoc,
    List.singleton_append] at hread
  cases fuel with
  | zero => simp [readValue] at hread
  | succ fuel =>
    simp only [readValue] at hread
    split at hread
    · cases hread
    · apply h fuel (depth - 1) rest
      rw [← hread]
      cases fuel with
      | zero => rw [readFields, readFields]
      | succ fuel =>
        cases fs with
        | nil =>
          rw [entryTokens, List.map_nil, List.drop_nil, List.nil_append, readFields, readFields]
        | cons f fs =>
          obtain ⟨name, v⟩ := f
          rw [printed_entries, List.drop_one, List.tail_cons]
          simp only [List.cons_append, readFields_first]

/-! ## Documents -/

/-- A printed value that is read at a shape is read as its parts are. -/
theorem read_pretty_eq {shape : Shape} {v w x : Value} (h : Settles shape v w) (hv : v.Basic)
    (hread : Json.read shape v.pretty = .ok x) : x = w := by
  have hvalue := h (2 * (tokens v.pretty.toList).length + 2) maxDepth []
  rw [List.append_nil, ← tokens_basic hv] at hvalue
  rw [Json.read, readTokens] at hread
  split at hread
  · cases hread
  · rename_i hout
    cases hvalue _ hout
    exact (Except.ok.inj hread).symm
  · cases hread

end Json

namespace Notary

open Json

theorem readAs_pretty_eq {α : Type} {shape : Shape} {ofValue? : Value → Option α} {v w : Value}
    {a b : α} (h : Settles shape v w) (hv : v.Basic) (ha : ofValue? w = some a)
    (hread : readAs shape ofValue? v.pretty = .ok b) : b = a := by
  rw [readAs] at hread
  split at hread
  · cases hread
  · rename_i hvalue
    cases read_pretty_eq h hv hvalue
    rw [ha] at hread
    exact (Except.ok.inj hread).symm

theorem Target.settles (t : Target) : Settles Target.shape t.toValue t.toValue :=
  settles_record (settlesFields_known rfl rfl (settles_text _) (settlesFields_known rfl rfl
    (settles_natural _) (settlesFields_nil rfl)))

theorem Staged.settles (s : Staged) : Settles Staged.shape s.toValue s.toValue :=
  settles_record (settlesFields_known rfl rfl (settles_text _) (settlesFields_known rfl rfl
    s.target.settles (settlesFields_nil rfl)))

theorem settles_texts (xs : List String) : Settles (.listOf .text) (texts xs) (texts xs) :=
  settles_list (settlesItems_map fun x _ => settles_text x)

theorem Record.settles (r : Record) : Settles Record.shape r.toValue r.toValue := by
  refine settles_record (settlesFields_known rfl rfl ?_ (settlesFields_known rfl rfl ?_
    (settlesFields_known rfl rfl ?_ (settlesFields_known rfl rfl (settles_natural _)
      (settlesFields_nil rfl)))))
  · exact settles_ofDict (fun _ => rfl) settles_text r.keys
  · exact settles_ofDict (fun _ => rfl) settles_texts r.roles
  · exact settles_ofDict (fun _ => rfl) Target.settles r.targets

theorem basic_ofDict {α : Type} {f : α → Value} (h : ∀ a, (f a).Basic) (d : Dict α) :
    (ofDict f d).Basic := by
  rw [ofDict, Value.Basic, basicFields_iff]
  intro e he
  obtain ⟨e', -, rfl⟩ := List.mem_map.1 he
  exact h e'.2

theorem basic_map {α : Type} {f : α → Value} (h : ∀ a, (f a).Basic) (xs : List α) :
    (Value.list (xs.map f)).Basic := by
  rw [Value.Basic, basicItems_iff]
  intro v hv
  obtain ⟨x, -, rfl⟩ := List.mem_map.1 hv
  exact h x

theorem Target.basic (t : Target) : t.toValue.Basic := ⟨trivial, trivial, trivial⟩

/-- Whatever is read of a record's file is the record. -/
theorem readAs_record_eq {r r' : Record}
    (h : readAs Record.shape Record.ofValue? r.toValue.pretty = .ok r') : r' = r := by
  refine readAs_pretty_eq r.settles ?_ r.ofValue?_toValue h
  have htext : ∀ s, (Value.text s).Basic := fun _ => trivial
  exact ⟨basic_ofDict htext _, basic_ofDict (basic_map htext) _, basic_ofDict Target.basic _,
    trivial, trivial⟩

/-- Whatever is read of a list of additions is the list. -/
theorem readAs_staged_eq {staged staged' : List Staged}
    (h : readAs (.listOf Staged.shape) (toList? Staged.ofValue?)
      (Value.list (staged.map Staged.toValue)).pretty = .ok staged') : staged' = staged := by
  have hstaged : toList? Staged.ofValue? (.list (staged.map Staged.toValue)) =
      some (staged.map id) := toList?_map fun _ _ => rfl
  rw [List.map_id] at hstaged
  refine readAs_pretty_eq (settles_list (settlesItems_map fun s _ => s.settles)) ?_ hstaged h
  have hbasic : ∀ s : Staged, s.toValue.Basic := fun s => ⟨trivial, s.target.basic, trivial⟩
  exact basic_map hbasic staged

end Notary
end TrustTrial
