import TrustTrial.Json.Reader
import TrustTrial.Proofs.JsonTokens

/-!
# TrustTrial.Proofs.JsonReading

A printed value read back at a shape. `Reads shape v w` says that the tokens of `v` are read as `w`,
whatever follows them; it has a rule for every shape, so that what a document is read as follows
from its parts. A shape may leave fields out, so `w` need not be `v`.
-/

namespace TrustTrial
namespace Json

/-! ## Levels -/

mutual

/-- How deep lists and objects are nested. -/
def Value.levels : Value → Nat
  | .list vs => itemLevels vs + 1
  | .object fs => fieldLevels fs + 1
  | _ => 0

def itemLevels : List Value → Nat
  | [] => 0
  | v :: vs => max v.levels (itemLevels vs)

def fieldLevels : List (String × Value) → Nat
  | [] => 0
  | (_, v) :: fs => max v.levels (fieldLevels fs)

end

theorem itemLevels_le {vs : List Value} {n : Nat} :
    itemLevels vs ≤ n ↔ ∀ v ∈ vs, v.levels ≤ n := by
  induction vs with
  | nil => simp [itemLevels]
  | cons v vs ih => rw [itemLevels, Nat.max_le, ih, List.forall_mem_cons]

theorem fieldLevels_le {fs : List (String × Value)} {n : Nat} :
    fieldLevels fs ≤ n ↔ ∀ f ∈ fs, f.2.levels ≤ n := by
  induction fs with
  | nil => simp [fieldLevels]
  | cons f fs ih => rw [fieldLevels, Nat.max_le, ih, List.forall_mem_cons]

/-- No value begins with a mark that ends a list or an object. -/
theorem tokens_head (v : Value) :
    ∃ t ts, v.tokens = t :: ts ∧ isRightBracket t = false ∧ isRightBrace t = false := by
  unfold Value.tokens
  split <;> exact ⟨_, _, rfl, rfl, rfl⟩

/-! ## Items -/

/-- The tokens of one value are read as another at a shape, with enough fuel and depth. -/
def Reads (shape : Shape) (v w : Value) : Prop :=
  ∀ fuel depth rest, 2 * v.tokens.length ≤ fuel → v.levels ≤ depth →
    readValue fuel depth shape (v.tokens ++ rest) = .ok (w, rest)

/-- The same for the items of a list after the first one. -/
def ReadsItems (shape : Shape) (vs ws : List Value) : Prop :=
  ∀ fuel depth rest, 2 * (itemTokens vs).length + 1 ≤ fuel → itemLevels vs ≤ depth →
    readItems fuel depth shape false (itemTokens vs ++ .rightBracket :: rest) = .ok (.list ws, rest)

theorem readComma_comma {isClosing : Token → Bool} {t : Token} (ht : isClosing t = false)
    (ts : List Token) : readComma isClosing false (.comma :: t :: ts) = .ok (t :: ts) := by
  simp [readComma, ht]

theorem readItems_comma {t : Token} (ht : isRightBracket t = false) (fuel depth : Nat)
    (shape : Shape) (ts : List Token) :
    readItems (fuel + 1) depth shape false (.comma :: t :: ts) =
      match readValue fuel depth shape (t :: ts) with
      | .error fault => .error fault
      | .ok (v, ts) =>
        match readItems fuel depth shape false ts with
        | .error fault => .error fault
        | .ok (.list vs, ts) => .ok (.list (v :: vs), ts)
        | .ok (_, ts) => .ok (.list [v], ts) := by
  rw [readItems]
  · exact readComma_comma ht ts ▸ rfl
  · simp

/-- The first item is read as if there were a comma before it. -/
theorem readItems_first {t : Token} (ht : isRightBracket t = false) (fuel depth : Nat)
    (shape : Shape) (ts : List Token) :
    readItems (fuel + 1) depth shape true (t :: ts) =
      readItems (fuel + 1) depth shape false (.comma :: t :: ts) := by
  rw [readItems_comma ht, readItems]
  · rfl
  · rintro rest h
    rw [(List.cons.inj h).1] at ht
    cases ht

theorem readsItems_nil (shape : Shape) : ReadsItems shape [] [] := by
  intro fuel depth rest hfuel _
  cases fuel with
  | zero => exact absurd hfuel (by simp)
  | succ fuel => rw [itemTokens, List.nil_append, readItems]

theorem readsItems_cons {shape : Shape} {v w : Value} {vs ws : List Value} (hv : Reads shape v w)
    (hvs : ReadsItems shape vs ws) : ReadsItems shape (v :: vs) (w :: ws) := by
  intro fuel depth rest hfuel hdepth
  rw [itemTokens, List.length_cons, List.length_append] at hfuel
  rw [itemLevels, Nat.max_le] at hdepth
  cases fuel with
  | zero => omega
  | succ fuel =>
    have hfirst := hv fuel depth (itemTokens vs ++ .rightBracket :: rest) (by omega) hdepth.1
    have hrest := hvs fuel depth rest (by omega) hdepth.2
    obtain ⟨t, ts, htokens, ht, -⟩ := tokens_head v
    rw [itemTokens, List.cons_append, List.append_assoc]
    rw [htokens] at hfirst ⊢
    rw [List.cons_append, readItems_comma ht]
    rw [List.cons_append] at hfirst
    rw [hfirst]
    dsimp only
    rw [hrest]

theorem readsItems_map {shape : Shape} {f : Value → Value} {vs : List Value}
    (h : ∀ v ∈ vs, Reads shape v (f v)) : ReadsItems shape vs (vs.map f) := by
  induction vs with
  | nil => exact readsItems_nil shape
  | cons v vs ih =>
    exact readsItems_cons (h v List.mem_cons_self) (ih fun u hu => h u (List.mem_cons_of_mem _ hu))

/-- The inside of a list, its end included. -/
theorem readItems_list {shape : Shape} {vs ws : List Value} (h : ReadsItems shape vs ws)
    {fuel depth : Nat} (hfuel : 2 * (itemTokens vs).length + 1 ≤ fuel)
    (hdepth : itemLevels vs ≤ depth) (rest : List Token) :
    readItems fuel depth shape true ((itemTokens vs).drop 1 ++ .rightBracket :: rest) =
      .ok (.list ws, rest) := by
  have hread := h fuel depth rest hfuel hdepth
  cases fuel with
  | zero => omega
  | succ fuel =>
    cases vs with
    | nil =>
      rw [itemTokens, List.nil_append, readItems] at hread
      rw [itemTokens, List.drop_nil, List.nil_append, readItems]
      exact hread
    | cons v vs =>
      obtain ⟨t, ts, htokens, ht, -⟩ := tokens_head v
      rw [itemTokens, htokens, List.cons_append, List.cons_append, List.cons_append] at hread
      rw [itemTokens, htokens, List.cons_append, List.drop_one, List.tail_cons, List.cons_append,
        readItems_first ht, hread]

theorem tokens_list (vs : List Value) :
    (Value.list vs).tokens = .leftBracket :: ((itemTokens vs).drop 1 ++ [.rightBracket]) := by
  cases vs <;> simp [Value.tokens, itemTokens]

theorem length_itemTokens_lt (vs : List Value) :
    (itemTokens vs).length < (Value.list vs).tokens.length := by
  rw [tokens_list, List.length_cons, List.length_append, List.length_drop, List.length_singleton]
  omega

/-- The shape of the items of a list of a shape. -/
def Shape.items? : Shape → Option Shape
  | .anything => some .anything
  | .skipped => some .skipped
  | .listOf item => some item
  | _ => none

/-- The shape of the fields of an object of a shape. -/
def Shape.entries? : Shape → Option Shape
  | .anything => some .anything
  | .skipped => some .skipped
  | .dictOf item => some item
  | _ => none

theorem reads_list {outer shape : Shape} (houter : outer.items? = some shape) {vs ws : List Value}
    (h : ReadsItems shape vs ws) : Reads outer (.list vs) (.list ws) := by
  intro fuel depth rest hfuel hdepth
  have hlength := length_itemTokens_lt vs
  rw [Value.levels] at hdepth
  cases fuel with
  | zero => omega
  | succ fuel =>
    -- Only what is kept counts as a level.
    obtain ⟨inner, hinner, hopen⟩ : ∃ inner, depth ≤ inner + 1 ∧
        ∀ ts, readValue (fuel + 1) depth outer (.leftBracket :: ts) =
          readItems fuel inner shape true ts := by
      have hne : depth ≠ 0 := by omega
      cases outer <;> cases houter
      case skipped => exact ⟨depth, by omega, fun ts => by rw [readValue]⟩
      all_goals exact ⟨depth - 1, by omega, fun ts => by simp only [readValue, if_neg hne]⟩
    rw [tokens_list, List.cons_append, List.append_assoc, List.singleton_append, hopen]
    exact readItems_list h (by omega) (by omega) rest

/-! ## Entries -/

/-- The token of a field's name. -/
def nameToken (name : String) : Token := .scalar true (.ok (.text name))

/-- The name that is kept of a field; a reader who skips it keeps none. -/
def keptName (shape : Shape) (name : String) : String :=
  match shape with
  | .skipped => ""
  | _ => name

/-- The same as `ReadsItems` for the fields of an object. -/
def ReadsEntries (shape : Shape) (fs gs : List (String × Value)) : Prop :=
  ∀ fuel depth rest, 2 * (entryTokens fs).length + 1 ≤ fuel → fieldLevels fs ≤ depth →
    readEntries fuel depth shape false (entryTokens fs ++ .rightBrace :: rest) =
      .ok (.object gs, rest)

theorem fieldTokens_eq (f : String × Value) :
    fieldTokens f = nameToken f.1 :: .colon :: f.2.tokens := by
  obtain ⟨name, v⟩ := f
  rw [fieldTokens]
  rfl

/-- The fuel for a field and those after it. -/
theorem exists_fuel_field {name : String} {v : Value} {fs : List (String × Value)} {fuel : Nat}
    (h : 2 * (entryTokens ((name, v) :: fs)).length + 1 ≤ fuel) :
    ∃ less, fuel = less + 1 ∧ 2 * v.tokens.length ≤ less ∧ 2 * (entryTokens fs).length + 1 ≤ less := by
  simp only [entryTokens, fieldTokens_eq, List.length_cons, List.length_append] at h
  exact ⟨fuel - 1, by omega, by omega, by omega⟩

theorem entryTokens_cons (name : String) (v : Value) (fs : List (String × Value))
    (rest : List Token) : entryTokens ((name, v) :: fs) ++ rest =
      .comma :: nameToken name :: .colon :: (v.tokens ++ (entryTokens fs ++ rest)) := by
  simp only [entryTokens, fieldTokens_eq, List.cons_append, List.append_assoc]

theorem readEntries_comma (fuel depth : Nat) (shape : Shape) (name : String) (ts : List Token) :
    readEntries (fuel + 1) depth shape false (.comma :: nameToken name :: .colon :: ts) =
      match readValue fuel depth shape ts with
      | .error fault => .error fault
      | .ok (v, ts) =>
        match readEntries fuel depth shape false ts with
        | .error fault => .error fault
        | .ok (.object vs, ts) => .ok (.object ((keptName shape name, v) :: vs), ts)
        | .ok (_, ts) => .ok (.object [(keptName shape name, v)], ts) := by
  cases shape
  all_goals
    rw [readEntries]
    · rfl
    all_goals simp

theorem readEntries_first (fuel depth : Nat) (shape : Shape) (name : String) (ts : List Token) :
    readEntries (fuel + 1) depth shape true (nameToken name :: .colon :: ts) =
      readEntries (fuel + 1) depth shape false (.comma :: nameToken name :: .colon :: ts) := by
  rw [readEntries_comma]
  cases shape
  all_goals
    rw [readEntries]
    · rfl
    all_goals simp [nameToken]

theorem readsEntries_nil (shape : Shape) : ReadsEntries shape [] [] := by
  intro fuel depth rest hfuel _
  cases fuel with
  | zero => exact absurd hfuel (by simp)
  | succ fuel => rw [entryTokens, List.nil_append, readEntries]

theorem readsEntries_cons {shape : Shape} {name : String} {v w : Value}
    {fs gs : List (String × Value)} (hv : Reads shape v w) (hfs : ReadsEntries shape fs gs) :
    ReadsEntries shape ((name, v) :: fs) ((keptName shape name, w) :: gs) := by
  intro fuel depth rest hfuel hdepth
  obtain ⟨less, rfl, hless, hmore⟩ := exists_fuel_field hfuel
  rw [fieldLevels, Nat.max_le] at hdepth
  have hfirst := hv less depth (entryTokens fs ++ .rightBrace :: rest) hless hdepth.1
  have hrest := hfs less depth rest hmore hdepth.2
  rw [entryTokens_cons, readEntries_comma, hfirst]
  dsimp only
  rw [hrest]

theorem tokens_object (fs : List (String × Value)) :
    (Value.object fs).tokens = .leftBrace :: ((entryTokens fs).drop 1 ++ [.rightBrace]) := by
  cases fs <;> simp [Value.tokens, entryTokens]

theorem length_entryTokens_lt (fs : List (String × Value)) :
    (entryTokens fs).length < (Value.object fs).tokens.length := by
  rw [tokens_object, List.length_cons, List.length_append, List.length_drop, List.length_singleton]
  omega

/-- The inside of an object, its end included. -/
theorem readEntries_object {shape : Shape} {fs gs : List (String × Value)}
    (h : ReadsEntries shape fs gs) {fuel depth : Nat}
    (hfuel : 2 * (entryTokens fs).length + 1 ≤ fuel) (hdepth : fieldLevels fs ≤ depth)
    (rest : List Token) :
    readEntries fuel depth shape true ((entryTokens fs).drop 1 ++ .rightBrace :: rest) =
      .ok (.object gs, rest) := by
  have hread := h fuel depth rest hfuel hdepth
  cases fuel with
  | zero => omega
  | succ fuel =>
    cases fs with
    | nil =>
      rw [entryTokens, List.nil_append, readEntries] at hread
      rw [entryTokens, List.drop_nil, List.nil_append, readEntries]
      exact hread
    | cons f fs =>
      simp only [entryTokens, fieldTokens_eq, List.cons_append, List.drop_one, List.tail_cons,
        List.append_assoc] at hread ⊢
      rw [readEntries_first, hread]

theorem reads_object {outer shape : Shape} (houter : outer.entries? = some shape)
    {fs gs : List (String × Value)} (h : ReadsEntries shape fs gs) :
    Reads outer (.object fs) (.object gs) := by
  intro fuel depth rest hfuel hdepth
  have hlength := length_entryTokens_lt fs
  rw [Value.levels] at hdepth
  cases fuel with
  | zero => omega
  | succ fuel =>
    -- Only what is kept counts as a level.
    obtain ⟨inner, hinner, hopen⟩ : ∃ inner, depth ≤ inner + 1 ∧
        ∀ ts, readValue (fuel + 1) depth outer (.leftBrace :: ts) =
          readEntries fuel inner shape true ts := by
      have hne : depth ≠ 0 := by omega
      cases outer <;> cases houter
      case skipped => exact ⟨depth, by omega, fun ts => by rw [readValue]⟩
      all_goals exact ⟨depth - 1, by omega, fun ts => by simp only [readValue, if_neg hne]⟩
    rw [tokens_object, List.cons_append, List.append_assoc, List.singleton_append, hopen]
    exact readEntries_object h (by omega) (by omega) rest

/-! ## Scalars -/

theorem reads_scalar {shape : Shape} {v w : Value} {b : Bool}
    (htokens : v.tokens = [.scalar b (.ok v)]) (h : readScalar shape (.ok v) = .ok w) :
    Reads shape v w := by
  intro fuel depth rest hfuel _
  rw [htokens] at hfuel ⊢
  cases fuel with
  | zero => exact absurd hfuel (by simp)
  | succ fuel => simp only [List.singleton_append, readValue, h]

theorem reads_text (s : String) : Reads .text (.text s) (.text s) :=
  reads_scalar (by rw [Value.tokens]) rfl

theorem reads_natural (n : Nat) : Reads .natural (.natural n) (.natural n) :=
  reads_scalar (by rw [Value.tokens]) rfl

/-! ## Values of any shape -/

mutual

theorem reads_anything (v : Value) : Reads .anything v v := by
  match v with
  | .null => exact reads_scalar (by rw [Value.tokens]) rfl
  | .boolean b => exact reads_scalar (by rw [Value.tokens]) rfl
  | .natural n => exact reads_scalar (by rw [Value.tokens]) rfl
  | .decimal written => exact reads_scalar (by rw [Value.tokens]) rfl
  | .text s => exact reads_scalar (by rw [Value.tokens]) rfl
  | .list vs => exact reads_list rfl (readsItems_anything vs)
  | .object fs => exact reads_object rfl (readsEntries_anything fs)

theorem readsItems_anything (vs : List Value) : ReadsItems .anything vs vs := by
  match vs with
  | [] => exact readsItems_nil _
  | v :: vs => exact readsItems_cons (reads_anything v) (readsItems_anything vs)

theorem readsEntries_anything (fs : List (String × Value)) : ReadsEntries .anything fs fs := by
  match fs with
  | [] => exact readsEntries_nil _
  | (name, v) :: fs => exact readsEntries_cons (reads_anything v) (readsEntries_anything fs)

end

mutual

/-- Every value can be skipped. -/
theorem reads_skipped (v : Value) : ∃ w, Reads .skipped v w := by
  match v with
  | .null => exact ⟨.null, reads_scalar (by rw [Value.tokens]) rfl⟩
  | .boolean b => exact ⟨.null, reads_scalar (by rw [Value.tokens]) rfl⟩
  | .natural n => exact ⟨.null, reads_scalar (by rw [Value.tokens]) rfl⟩
  | .decimal written => exact ⟨.null, reads_scalar (by rw [Value.tokens]) rfl⟩
  | .text s => exact ⟨.null, reads_scalar (by rw [Value.tokens]) rfl⟩
  | .list vs =>
    obtain ⟨ws, h⟩ := readsItems_skipped vs
    exact ⟨_, reads_list rfl h⟩
  | .object fs =>
    obtain ⟨gs, h⟩ := readsEntries_skipped fs
    exact ⟨_, reads_object rfl h⟩

theorem readsItems_skipped (vs : List Value) : ∃ ws, ReadsItems .skipped vs ws := by
  match vs with
  | [] => exact ⟨[], readsItems_nil _⟩
  | v :: vs =>
    obtain ⟨w, hv⟩ := reads_skipped v
    obtain ⟨ws, hvs⟩ := readsItems_skipped vs
    exact ⟨_, readsItems_cons hv hvs⟩

theorem readsEntries_skipped (fs : List (String × Value)) : ∃ gs, ReadsEntries .skipped fs gs := by
  match fs with
  | [] => exact ⟨[], readsEntries_nil _⟩
  | (name, v) :: fs =>
    obtain ⟨w, hv⟩ := reads_skipped v
    obtain ⟨gs, hfs⟩ := readsEntries_skipped fs
    exact ⟨_, readsEntries_cons hv hfs⟩

end

/-! ## Records -/

/-- The rest of a record's fields is read as `gs`, if those in `read` were met before. -/
def ReadsFields (fields : List (String × Shape)) (read fs gs : List (String × Value)) : Prop :=
  ∀ fuel depth rest, 2 * (entryTokens fs).length + 1 ≤ fuel → fieldLevels fs ≤ depth →
    readFields fuel depth fields read false (entryTokens fs ++ .rightBrace :: rest) =
      .ok (.object gs, rest)

theorem readFields_comma (fuel depth : Nat) (fields : List (String × Shape))
    {read : List (String × Value)} {name : String} (hnew : lastField name read = none)
    (ts : List Token) :
    readFields (fuel + 1) depth fields read false (.comma :: nameToken name :: .colon :: ts) =
      match fieldShape name fields with
      | none =>
        match readValue fuel depth .skipped ts with
        | .error fault => .error fault
        | .ok (_, ts) => readFields fuel depth fields read false ts
      | some shape =>
        match readValue fuel depth shape ts with
        | .error fault => .error fault
        | .ok (v, ts) => readFields fuel depth fields ((name, v) :: read) false ts := by
  have hname : readName false (fun name => (lastField name read).isNone)
      (nameToken name :: .colon :: ts) = .ok (name, ts) := by
    simp [readName, nameToken, hnew]
  rw [readFields, readComma_comma rfl]
  · dsimp only
    exact hname ▸ rfl
  · simp

theorem readFields_first (fuel depth : Nat) (fields : List (String × Shape)) {name : String}
    (ts : List Token) :
    readFields (fuel + 1) depth fields [] true (nameToken name :: .colon :: ts) =
      readFields (fuel + 1) depth fields [] false (.comma :: nameToken name :: .colon :: ts) := by
  rw [readFields_comma fuel depth fields rfl, readFields]
  · rfl
  · simp [nameToken]

theorem readsFields_nil {fields : List (String × Shape)} {read gs : List (String × Value)}
    (h : inOrder read fields = some gs) : ReadsFields fields read [] gs := by
  intro fuel depth rest hfuel _
  cases fuel with
  | zero => exact absurd hfuel (by simp)
  | succ fuel =>
    rw [entryTokens, List.nil_append, readFields]
    simp only [h]

theorem readsFields_known {fields : List (String × Shape)} {shape : Shape} {name : String}
    {v w : Value} {read fs gs : List (String × Value)} (hshape : fieldShape name fields = some shape)
    (hnew : lastField name read = none) (hv : Reads shape v w)
    (hfs : ReadsFields fields ((name, w) :: read) fs gs) :
    ReadsFields fields read ((name, v) :: fs) gs := by
  intro fuel depth rest hfuel hdepth
  obtain ⟨less, rfl, hless, hmore⟩ := exists_fuel_field hfuel
  rw [fieldLevels, Nat.max_le] at hdepth
  have hfirst := hv less depth (entryTokens fs ++ .rightBrace :: rest) hless hdepth.1
  have hrest := hfs less depth rest hmore hdepth.2
  rw [entryTokens_cons, readFields_comma less depth fields hnew, hshape]
  simp only [hfirst, hrest]

theorem readsFields_unknown {fields : List (String × Shape)} {name : String} {v : Value}
    {read fs gs : List (String × Value)} (hshape : fieldShape name fields = none)
    (hnew : lastField name read = none) (hfs : ReadsFields fields read fs gs) :
    ReadsFields fields read ((name, v) :: fs) gs := by
  intro fuel depth rest hfuel hdepth
  obtain ⟨less, rfl, hless, hmore⟩ := exists_fuel_field hfuel
  rw [fieldLevels, Nat.max_le] at hdepth
  obtain ⟨w, hv⟩ := reads_skipped v
  have hfirst := hv less depth (entryTokens fs ++ .rightBrace :: rest) hless hdepth.1
  have hrest := hfs less depth rest hmore hdepth.2
  rw [entryTokens_cons, readFields_comma less depth fields hnew, hshape]
  simp only [hfirst, hrest]

theorem reads_record {fields : List (String × Shape)} {fs gs : List (String × Value)}
    (h : ReadsFields fields [] fs gs) : Reads (.record fields) (.object fs) (.object gs) := by
  intro fuel depth rest hfuel hdepth
  have hlength := length_entryTokens_lt fs
  rw [Value.levels] at hdepth
  cases fuel with
  | zero => omega
  | succ fuel =>
    have hread := h fuel (depth - 1) rest (by omega) (by omega)
    rw [tokens_object, List.cons_append, List.append_assoc, List.singleton_append, readValue]
    simp only [if_neg (show depth ≠ 0 by omega)]
    cases fuel with
    | zero => omega
    | succ fuel =>
      cases fs with
      | nil =>
        rw [entryTokens, List.nil_append, readFields] at hread
        rw [entryTokens, List.drop_nil, List.nil_append, readFields]
        exact hread
      | cons f fs =>
        simp only [entryTokens, fieldTokens_eq, List.cons_append, List.drop_one, List.tail_cons,
          List.append_assoc] at hread ⊢
        rw [readFields_first, hread]

/-! ## Documents -/

/-- A printed value is read at a shape as its parts are. -/
theorem read_pretty {shape : Shape} {v w : Value} (h : Reads shape v w) (hv : v.Plain)
    (hlevels : v.levels ≤ maxDepth) : Json.read shape v.pretty = .ok w := by
  have hread := h (2 * v.tokens.length + 2) maxDepth [] (by omega) hlevels
  rw [List.append_nil] at hread
  simp only [Json.read, tokens_pretty hv, readTokens, hread]

end Json
end TrustTrial
