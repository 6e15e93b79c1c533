/-!
# TrustTrial.Dict

Finite maps from text, kept in the order of their keys. A later entry for a key takes the place of
an earlier one, so two dictionaries with the same entries are equal.
-/

namespace TrustTrial

/-- Puts an entry in its place among ascending keys. -/
def placeEntry {α : Type} (k : String) (v : α) : List (String × α) → List (String × α)
  | [] => [(k, v)]
  | e :: es =>
    if k < e.1 then (k, v) :: e :: es
    else if k = e.1 then (k, v) :: es
    else e :: placeEntry k v es

/-- The value at a key, the first one if it occurs more than once. -/
def findEntry {α : Type} (j : String) : List (String × α) → Option α
  | [] => none
  | e :: es => if j = e.1 then some e.2 else findEntry j es

theorem findEntry_placeEntry {α : Type} (k : String) (v : α) (es : List (String × α))
    (j : String) :
    findEntry j (placeEntry k v es) = if j = k then some v else findEntry j es := by
  induction es with
  | nil => rfl
  | cons e es ih =>
    simp only [placeEntry]
    split
    · rfl
    · split
      · rename_i hk
        subst hk
        simp only [findEntry]
        split <;> rfl
      · rename_i hk
        simp only [findEntry, ih]
        split
        · rename_i hj
          exact (if_neg fun h : j = k => hk (h.symm.trans hj)).symm
        · rfl

theorem mem_placeEntry {α : Type} {k : String} {v : α} {es : List (String × α)}
    {e : String × α} (h : e ∈ placeEntry k v es) : e = (k, v) ∨ e ∈ es := by
  induction es with
  | nil => exact .inl (List.mem_singleton.1 h)
  | cons d es ih =>
    simp only [placeEntry] at h
    split at h
    · exact List.mem_cons.1 h
    · split at h
      · rcases List.mem_cons.1 h with h | h
        · exact .inl h
        · exact .inr (List.mem_cons_of_mem _ h)
      · rcases List.mem_cons.1 h with h | h
        · exact .inr (h ▸ List.mem_cons_self)
        · rcases ih h with h | h
          · exact .inl h
          · exact .inr (List.mem_cons_of_mem _ h)

theorem pairwise_placeEntry {α : Type} (k : String) (v : α) {es : List (String × α)}
    (h : es.Pairwise (fun a b => a.1 < b.1)) :
    (placeEntry k v es).Pairwise (fun a b => a.1 < b.1) := by
  induction es with
  | nil => exact List.pairwise_singleton _ _
  | cons e es ih =>
    have ⟨he, hes⟩ := List.pairwise_cons.1 h
    simp only [placeEntry]
    split
    · rename_i hk
      refine List.pairwise_cons.2 ⟨fun b hb => ?_, h⟩
      rcases List.mem_cons.1 hb with rfl | hb
      · exact hk
      · exact String.lt_trans hk (he b hb)
    · split
      · rename_i hk
        exact List.pairwise_cons.2 ⟨fun b hb => hk ▸ he b hb, hes⟩
      · rename_i hlt hne
        refine List.pairwise_cons.2 ⟨fun b hb => ?_, ih hes⟩
        rcases mem_placeEntry hb with rfl | hb
        · apply Std.not_le.1
          intro hle
          exact hlt (Std.lt_of_le_of_ne hle hne)
        · exact he b hb

/-- Entries with pairwise distinct keys, in ascending order of the keys. -/
structure Dict (α : Type) where
  toList : List (String × α)
  ascending : toList.Pairwise (fun a b => a.1 < b.1)

namespace Dict

variable {α β : Type}

instance [DecidableEq α] : DecidableEq (Dict α) := fun a b =>
  if h : a.toList = b.toList then
    isTrue (by cases a; cases b; cases h; rfl)
  else isFalse (fun e => h (e ▸ rfl))

@[ext] theorem ext {a b : Dict α} (h : a.toList = b.toList) : a = b := by
  cases a; cases b; cases h; rfl

def empty : Dict α := ⟨[], .nil⟩

instance : Inhabited (Dict α) := ⟨empty⟩

def insert (d : Dict α) (k : String) (v : α) : Dict α :=
  ⟨placeEntry k v d.toList, pairwise_placeEntry k v d.ascending⟩

def erase (d : Dict α) (k : String) : Dict α :=
  ⟨d.toList.filter (fun e => e.1 ≠ k), d.ascending.filter _⟩

/-- Later entries win over earlier ones with the same key. -/
def ofList (es : List (String × α)) : Dict α := es.foldl (fun d e => d.insert e.1 e.2) empty

def get? (d : Dict α) (k : String) : Option α := findEntry k d.toList

def contains (d : Dict α) (k : String) : Bool := (d.get? k).isSome

def size (d : Dict α) : Nat := d.toList.length

def keys (d : Dict α) : List String := d.toList.map (·.1)

/-- Applies `f` to every value. -/
def map (f : α → β) (d : Dict α) : Dict β :=
  ⟨d.toList.map (fun e => (e.1, f e.2)), by
    have h := d.ascending
    rw [List.pairwise_map]
    exact h⟩

@[simp] theorem get?_empty (k : String) : (empty : Dict α).get? k = none := rfl

theorem get?_insert (d : Dict α) (k : String) (v : α) (j : String) :
    (d.insert k v).get? j = if j = k then some v else d.get? j :=
  findEntry_placeEntry k v d.toList j

@[simp] theorem get?_insert_self (d : Dict α) (k : String) (v : α) :
    (d.insert k v).get? k = some v := by
  simp [get?_insert]

end Dict
end TrustTrial
