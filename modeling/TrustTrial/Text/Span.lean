/-!
# TrustTrial.Text.Span

Sets of code points given as closed spans `(first, last)` in ascending order.
-/

namespace TrustTrial
namespace Text

/-- Membership in ascending spans; the search ends at the first span above the code point. -/
def spanned : List (Nat × Nat) → Nat → Bool
  | [], _ => false
  | (first, last) :: spans, n =>
    if n < first then false else if n ≤ last then true else spanned spans n

end Text
end TrustTrial
