import TrustTrial.Text.Casing

/-!
# TrustTrial.Text.Lowercase

Full Unicode lower case of a text. It depends on context at one letter only: a capital sigma at
the end of a word becomes the final sigma. The dotted capital I becomes two characters.
-/

namespace TrustTrial
namespace Text

def lowerChar (c : Char) : Char := Char.ofNat (lowerCode lowerRows c.toNat)

/-- Whether the nearest character that is not ignored is cased. -/
def meetsCased (s : List Char) : Bool :=
  match s.dropWhile isCaseIgnorable with
  | [] => false
  | c :: _ => isCased c

/-- Lower case of one letter between the reversed text before it and the text after it. -/
def lowerInContext (before : List Char) (c : Char) (after : List Char) : List Char :=
  if c = 'Σ' then
    if meetsCased before && !meetsCased after then ['ς'] else ['σ']
  else if c = 'İ' then ['i', '\u0307']
  else [lowerChar c]

def lowercaseFrom (before : List Char) : List Char → List Char
  | [] => []
  | c :: after => lowerInContext before c after ++ lowercaseFrom (c :: before) after

def lowercase (s : String) : String := .ofList (lowercaseFrom [] s.toList)

end Text
end TrustTrial
