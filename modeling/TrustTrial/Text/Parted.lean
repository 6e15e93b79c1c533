/-!
# TrustTrial.Text.Parted

Text cut at every occurrence of a separator. Empty parts count, so there is one more part than
there are separators.
-/

namespace TrustTrial
namespace Text

def partChars (separator : Char) : List Char → List (List Char)
  | [] => [[]]
  | c :: s =>
    if c = separator then [] :: partChars separator s
    else
      match partChars separator s with
      | [] => [[c]]
      | p :: ps => (c :: p) :: ps

def parted (separator : Char) (s : String) : List String :=
  (partChars separator s.toList).map .ofList

theorem partChars_ne_nil (separator : Char) (s : List Char) : partChars separator s ≠ [] := by
  cases s with
  | nil => simp [partChars]
  | cons c s =>
    simp only [partChars]
    split
    · simp
    · split <;> simp

theorem partChars_append_cons (separator : Char) (a b : List Char) :
    partChars separator (a ++ separator :: b) =
      partChars separator a ++ partChars separator b := by
  induction a with
  | nil => simp [partChars]
  | cons c a ih =>
    simp only [List.cons_append, partChars, ih]
    split
    · rfl
    · cases h : partChars separator a with
      | nil => exact absurd h (partChars_ne_nil separator a)
      | cons p ps => rfl

end Text
end TrustTrial
