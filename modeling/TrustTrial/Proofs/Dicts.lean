import Mathlib.Data.List.Induction
import TrustTrial.Dict

/-!
# TrustTrial.Proofs.Dicts

Dictionaries as lists of entries: what their entries make up again, how many there are, and what
changes when one is put in or taken away. Of a list of entries the last one of a key counts
(`lastEntry`).
-/

namespace TrustTrial

/-! ## Entries -/

theorem placeEntry_last {α : Type} {k : String} {es : List (String × α)} (v : α)
    (h : ∀ e ∈ es, e.1 < k) : placeEntry k v es = es ++ [(k, v)] := by
  induction es with
  | nil => rfl
  | cons e es ih =>
    have he : e.1 < k := h e List.mem_cons_self
    have hlt : ¬k < e.1 := fun hk => String.lt_irrefl _ (String.lt_trans hk he)
    have hne : k ≠ e.1 := by
      rintro rfl
      exact String.lt_irrefl _ he
    rw [placeEntry, if_neg hlt, if_neg hne, ih fun d hd => h d (List.mem_cons_of_mem _ hd)]
    rfl

theorem Dict.foldl_insert {α : Type} (d : Dict α) (es : List (String × α))
    (h : (d.toList ++ es).Pairwise (fun a b => a.1 < b.1)) :
    (es.foldl (fun d e => d.insert e.1 e.2) d).toList = d.toList ++ es := by
  induction es generalizing d with
  | nil => simp
  | cons e es ih =>
    have hlast : (d.insert e.1 e.2).toList = d.toList ++ [e] := by
      refine placeEntry_last e.2 fun b hb => ?_
      exact (List.pairwise_append.1 h).2.2 b hb e List.mem_cons_self
    rw [List.foldl_cons, ih _ (by simpa [hlast] using h), hlast]
    simp

theorem Dict.toList_ofList {α : Type} {es : List (String × α)}
    (h : es.Pairwise (fun a b => a.1 < b.1)) : (Dict.ofList es).toList = es :=
  Dict.foldl_insert Dict.empty es h

/-- The entries of a dictionary make up the dictionary. -/
theorem Dict.ofList_toList {α : Type} (d : Dict α) : Dict.ofList d.toList = d :=
  Dict.ext (Dict.toList_ofList d.ascending)

theorem Dict.mem_foldl_insert {α : Type} {es : List (String × α)} {d : Dict α} {e : String × α}
    (h : e ∈ (es.foldl (fun d e => d.insert e.1 e.2) d).toList) : e ∈ es ∨ e ∈ d.toList := by
  induction es generalizing d with
  | nil => exact .inr h
  | cons e' es ih =>
    rcases ih h with hes | hd
    · exact .inl (List.mem_cons_of_mem _ hes)
    · rcases mem_placeEntry hd with rfl | hd
      · exact .inl List.mem_cons_self
      · exact .inr hd

theorem Dict.toList_map {α β : Type} (f : α → β) (d : Dict α) :
    (d.map f).toList = d.toList.map fun e => (e.1, f e.2) := rfl

theorem findEntry_isSome {α : Type} (k : String) (es : List (String × α)) :
    (findEntry k es).isSome = es.any (fun e => e.1 = k) := by
  induction es with
  | nil => rfl
  | cons e es ih =>
    rw [findEntry, List.any_cons, ← ih]
    by_cases h : k = e.1
    · simp [h]
    · rw [if_neg h, decide_eq_false fun he => h he.symm, Bool.false_or]

theorem Dict.contains_eq_any {α : Type} (d : Dict α) (k : String) :
    d.contains k = d.toList.any (fun e => e.1 = k) := findEntry_isSome k d.toList

/-- A key occurs once or not at all. -/
theorem Dict.countP_toList {α : Type} (d : Dict α) (k : String) :
    d.toList.countP (fun e => e.1 = k) = if d.contains k then 1 else 0 := by
  rw [Dict.contains_eq_any]
  obtain ⟨es, h⟩ := d
  dsimp only
  induction es with
  | nil => rfl
  | cons e es ih =>
    have ⟨he, hes⟩ := List.pairwise_cons.1 h
    rw [List.countP_cons, List.any_cons, ih hes]
    by_cases hk : e.1 = k
    · have hnone : es.any (fun e => e.1 = k) = false := by
        rw [List.any_eq_false]
        intro b hb hbk
        have hlt := he b hb
        rw [hk, of_decide_eq_true hbk] at hlt
        exact String.lt_irrefl _ hlt
      simp [hk, hnone]
    · rw [decide_eq_false hk, Bool.false_or, if_neg Bool.false_ne_true, Nat.add_zero]

/-! ## Changes -/

theorem findEntry_filter {α : Type} (k : String) (es : List (String × α)) (j : String) :
    findEntry j (es.filter (fun e => e.1 ≠ k)) = if j = k then none else findEntry j es := by
  induction es with
  | nil => simp [findEntry]
  | cons e es ih =>
    by_cases he : e.1 = k
    · rw [List.filter_cons_of_neg (by simp [he]), ih, findEntry]
      by_cases hj : j = k
      · rw [if_pos hj, if_pos hj]
      · rw [if_neg hj, if_neg hj, if_neg (fun h => hj (h.trans he))]
    · rw [List.filter_cons_of_pos (by simp [he]), findEntry, findEntry, ih]
      by_cases hj : j = e.1
      · rw [if_pos hj, if_pos hj, if_neg (fun h => he (hj.symm.trans h))]
      · rw [if_neg hj, if_neg hj]

theorem Dict.get?_erase {α : Type} (d : Dict α) (k j : String) :
    (d.erase k).get? j = if j = k then none else d.get? j :=
  findEntry_filter k d.toList j

theorem placeEntry_keys {α : Type} {k : String} (v : α) {es : List (String × α)}
    (hes : es.Pairwise (fun a b => a.1 < b.1)) (h : es.any (fun e => e.1 = k) = true) :
    (placeEntry k v es).map Prod.fst = es.map Prod.fst := by
  induction es with
  | nil => cases h
  | cons e es ih =>
    have ⟨he, hes⟩ := List.pairwise_cons.1 hes
    rw [placeEntry]
    by_cases hk : e.1 = k
    · rw [hk, if_neg (String.lt_irrefl k), if_pos rfl, List.map_cons, List.map_cons, hk]
    · rw [List.any_cons, decide_eq_false hk, Bool.false_or] at h
      obtain ⟨b, hb, hbk⟩ := List.any_eq_true.1 h
      -- The key stands further back, where all keys are greater than this one.
      have hlt : e.1 < k := of_decide_eq_true hbk ▸ he b hb
      rw [if_neg fun hgt => String.lt_irrefl _ (String.lt_trans hlt hgt),
        if_neg fun heq => hk heq.symm, List.map_cons, List.map_cons, ih hes h]

/-- A new value at a key leaves the keys as they are. -/
theorem Dict.keys_insert {α : Type} {d : Dict α} {k : String} (v : α)
    (h : d.contains k = true) : (d.insert k v).keys = d.keys :=
  placeEntry_keys v d.ascending (by rwa [← Dict.contains_eq_any])

theorem length_placeEntry {α : Type} {k : String} (v : α) {es : List (String × α)}
    (h : findEntry k es = none) : (placeEntry k v es).length = es.length + 1 := by
  induction es with
  | nil => rfl
  | cons e es ih =>
    rw [findEntry] at h
    split at h
    · cases h
    · rename_i hk
      rw [placeEntry]
      split
      · rfl
      · rw [List.length_cons, List.length_cons, ih h]

/-- A new entry makes one entry more. -/
theorem Dict.size_insert {α : Type} {d : Dict α} {k : String} (v : α) (h : d.get? k = none) :
    (d.insert k v).size = d.size + 1 := length_placeEntry v h

/-- A new value for an entry makes no entry more. -/
theorem Dict.size_insert_of_contains {α : Type} {d : Dict α} {k : String} (v : α)
    (h : d.contains k = true) : (d.insert k v).size = d.size := by
  have hkeys := congrArg List.length (Dict.keys_insert v h)
  rwa [Dict.keys, Dict.keys, List.length_map, List.length_map] at hkeys

theorem Dict.contains_insert {α : Type} (d : Dict α) (k : String) (v : α) (j : String) :
    (d.insert k v).contains j = true ↔ j = k ∨ d.contains j = true := by
  rw [Dict.contains, Dict.contains, Dict.get?_insert]
  by_cases h : j = k <;> simp [h]

/-- An entry that is taken away makes one entry less. -/
theorem Dict.size_erase {α : Type} {d : Dict α} {k : String} (h : d.contains k = true) :
    (d.erase k).size + 1 = d.size := by
  have hcount := Dict.countP_toList d k
  rw [if_pos h] at hcount
  have hsplit := List.length_eq_countP_add_countP (fun e : String × α => decide (e.1 = k))
    (l := d.toList)
  rw [hcount, List.countP_eq_length_filter] at hsplit
  rw [Dict.size, Dict.size, hsplit, Nat.add_comm]
  congr 2
  simp [Dict.erase]

/-! ## Keys -/

/-- Of two ascending lists, the one whose members the other has too is a part of it. -/
theorem sublist_of_ascending {xs ys : List String} (hxs : xs.Pairwise (· < ·))
    (hys : ys.Pairwise (· < ·)) (h : ∀ x ∈ xs, x ∈ ys) : xs.Sublist ys := by
  induction ys generalizing xs with
  | nil =>
    cases xs with
    | nil => exact .slnil
    | cons x xs => exact absurd (h x List.mem_cons_self) List.not_mem_nil
  | cons y ys ih =>
    obtain ⟨hy, hys'⟩ := List.pairwise_cons.1 hys
    cases xs with
    | nil => exact List.nil_sublist _
    | cons x xs =>
      obtain ⟨hx, hxs'⟩ := List.pairwise_cons.1 hxs
      by_cases hxy : x = y
      · subst hxy
        refine .cons_cons x (ih hxs' hys' fun z hz => ?_)
        refine (List.mem_cons.1 (h z (List.mem_cons_of_mem _ hz))).resolve_left ?_
        rintro rfl
        exact String.lt_irrefl _ (hx z hz)
      · -- The first member stands further back in the other list, and so do all that follow it.
        have hlt : y < x := hy x ((List.mem_cons.1 (h x List.mem_cons_self)).resolve_left hxy)
        refine .cons y (ih hxs hys' fun z hz => (List.mem_cons.1 (h z hz)).resolve_left ?_)
        rintro rfl
        rcases List.mem_cons.1 hz with he | hz
        · exact hxy he.symm
        · exact String.lt_irrefl _ (String.lt_trans hlt (hx z hz))

theorem Dict.mem_keys {α : Type} (d : Dict α) (k : String) :
    k ∈ d.keys ↔ d.contains k = true := by
  rw [Dict.contains_eq_any, Dict.keys, List.mem_map, List.any_eq_true]
  constructor
  · rintro ⟨e, he, rfl⟩
    exact ⟨e, he, decide_eq_true rfl⟩
  · rintro ⟨e, he, hk⟩
    exact ⟨e, he, of_decide_eq_true hk⟩

/-- A dictionary that has all keys of another one is as large only if it has no others. -/
theorem Dict.size_le_of_contains {α β : Type} {a : Dict α} {b : Dict β}
    (h : ∀ k, a.contains k = true → b.contains k = true) :
    a.size ≤ b.size ∧ (b.size = a.size ↔ ∀ k, b.contains k = true → a.contains k = true) := by
  have hascending : ∀ {γ : Type} (d : Dict γ), d.keys.Pairwise (· < ·) := fun d =>
    List.pairwise_map.2 d.ascending
  have hlength : ∀ {γ : Type} (d : Dict γ), d.keys.length = d.size := fun d => List.length_map _
  have hforth : a.keys.Sublist b.keys :=
    sublist_of_ascending (hascending a) (hascending b) fun k hk =>
      (b.mem_keys k).2 (h k ((a.mem_keys k).1 hk))
  rw [← hlength a, ← hlength b]
  refine ⟨hforth.length_le, fun hsize k hk => ?_, fun hback => ?_⟩
  · rw [← a.mem_keys, hforth.eq_of_length hsize.symm]
    exact (b.mem_keys k).2 hk
  · have hother : b.keys.Sublist a.keys :=
      sublist_of_ascending (hascending b) (hascending a) fun k hk =>
        (a.mem_keys k).2 (hback k ((b.mem_keys k).1 hk))
    exact Nat.le_antisymm hother.length_le hforth.length_le

/-! ## Values -/

theorem mem_of_findEntry {α : Type} {k : String} {v : α} {es : List (String × α)}
    (h : findEntry k es = some v) : (k, v) ∈ es := by
  induction es with
  | nil => cases h
  | cons e es ih =>
    rw [findEntry] at h
    split at h
    · rename_i hk
      cases h
      exact hk ▸ List.mem_cons_self
    · exact List.mem_cons_of_mem _ (ih h)

theorem findEntry_of_lt {α : Type} {k : String} {es : List (String × α)} (h : ∀ e ∈ es, k < e.1) :
    findEntry k es = none := by
  cases hfound : findEntry k es with
  | none => rfl
  | some v => exact absurd (h _ (mem_of_findEntry hfound)) (String.lt_irrefl k)

theorem eq_of_findEntry {α : Type} {es fs : List (String × α)}
    (hes : es.Pairwise (fun a b => a.1 < b.1)) (hfs : fs.Pairwise (fun a b => a.1 < b.1))
    (h : ∀ k, findEntry k es = findEntry k fs) : es = fs := by
  induction es generalizing fs with
  | nil =>
    cases fs with
    | nil => rfl
    | cons f fs => simpa [findEntry] using h f.1
  | cons e es ih =>
    obtain ⟨he, hes'⟩ := List.pairwise_cons.1 hes
    cases fs with
    | nil => simpa [findEntry] using h e.1
    | cons f fs =>
      obtain ⟨hf, hfs'⟩ := List.pairwise_cons.1 hfs
      have hforth : (e.1, e.2) ∈ f :: fs := mem_of_findEntry (by rw [← h, findEntry, if_pos rfl])
      have hback : (f.1, f.2) ∈ e :: es := mem_of_findEntry (by rw [h, findEntry, if_pos rfl])
      obtain rfl : e = f := by
        rcases List.mem_cons.1 hforth with hsame | hforth
        · exact hsame
        · rcases List.mem_cons.1 hback with hsame | hback
          · exact hsame.symm
          · -- Each of the two would stand behind the other.
            exact absurd (String.lt_trans (hf _ hforth) (he _ hback)) (String.lt_irrefl _)
      rw [ih hes' hfs' fun k => ?_]
      by_cases hk : k = e.1
      · rw [hk, findEntry_of_lt he, findEntry_of_lt hf]
      · have hentry := h k
        rwa [findEntry, findEntry, if_neg hk, if_neg hk] at hentry

/-- Dictionaries are equal if they have the same value for every key. -/
theorem Dict.eq_of_get? {α : Type} {a b : Dict α} (h : ∀ k, a.get? k = b.get? k) : a = b :=
  Dict.ext (eq_of_findEntry a.ascending b.ascending h)

theorem findEntry_of_mem {α : Type} {k : String} {v : α} {es : List (String × α)}
    (hes : es.Pairwise (fun a b => a.1 < b.1)) (h : (k, v) ∈ es) : findEntry k es = some v := by
  induction es with
  | nil => cases h
  | cons e es ih =>
    obtain ⟨hfirst, hes⟩ := List.pairwise_cons.1 hes
    rcases List.mem_cons.1 h with rfl | h
    · simp [findEntry]
    · have hne : k ≠ e.1 := by
        rintro rfl
        exact String.lt_irrefl _ (hfirst (e.1, v) h)
      rw [findEntry, if_neg hne, ih hes h]

theorem Dict.mem_toList {α : Type} {d : Dict α} {k : String} {v : α} :
    (k, v) ∈ d.toList ↔ d.get? k = some v :=
  ⟨findEntry_of_mem d.ascending, mem_of_findEntry⟩

theorem Dict.get?_foldl_erase {α : Type} (ks : List String) (d : Dict α) (j : String) :
    (ks.foldl Dict.erase d).get? j = if j ∈ ks then none else d.get? j := by
  induction ks generalizing d with
  | nil => simp
  | cons k ks ih =>
    rw [List.foldl_cons, ih, Dict.get?_erase]
    by_cases hmem : j ∈ ks <;> by_cases hk : j = k <;> simp [hmem, hk]

/-! ## The last entry of a key -/

/-- The value at a key in a list of entries, the last one if it occurs more than once. -/
def lastEntry {α : Type} (k : String) (es : List (String × α)) : Option α :=
  (es.filterMap (fun e => if e.1 = k then some e.2 else none)).getLast?

@[simp] theorem lastEntry_nil {α : Type} (k : String) : lastEntry k ([] : List (String × α)) = none :=
  rfl

theorem lastEntry_append {α : Type} (k : String) (es fs : List (String × α)) :
    lastEntry k (es ++ fs) = (lastEntry k fs).or (lastEntry k es) := by
  rw [lastEntry, List.filterMap_append, List.getLast?_append]
  rfl

theorem lastEntry_concat {α : Type} (k : String) (es : List (String × α)) (e : String × α) :
    lastEntry k (es ++ [e]) = if e.1 = k then some e.2 else lastEntry k es := by
  rw [lastEntry_append]
  by_cases h : e.1 = k <;> simp [lastEntry, h]

theorem Dict.get?_foldl_insert {α : Type} (es : List (String × α)) (d : Dict α) (k : String) :
    (es.foldl (fun d e => d.insert e.1 e.2) d).get? k = (lastEntry k es).or (d.get? k) := by
  induction es using List.reverseRecOn with
  | nil => rfl
  | append_singleton es e ih =>
    rw [List.foldl_append, List.foldl_cons, List.foldl_nil, Dict.get?_insert, ih, lastEntry_concat]
    by_cases h : e.1 = k
    · rw [if_pos h.symm, if_pos h]
      rfl
    · rw [if_neg (Ne.symm h), if_neg h]

theorem lastEntry_isSome {α : Type} (k : String) (es : List (String × α)) :
    (lastEntry k es).isSome = es.any (fun e => e.1 = k) := by
  induction es using List.reverseRecOn with
  | nil => rfl
  | append_singleton es e ih =>
    rw [lastEntry_concat, List.any_append, ← ih]
    by_cases h : e.1 = k <;> simp [h]

theorem Dict.contains_ofList {α : Type} (es : List (String × α)) (k : String) :
    (Dict.ofList es).contains k = es.any (fun e => e.1 = k) := by
  rw [Dict.contains, Dict.ofList, Dict.get?_foldl_insert, Dict.get?_empty, Option.or_none,
    lastEntry_isSome]

end TrustTrial
