/-!
# TrustTrial.Text.Line

Lines as they are read from bytes: up to a line feed, as text, and without what ends them.
-/

namespace TrustTrial
namespace Text

def isLineEnd (c : Char) : Bool := c = '\n' || c = '\r'

def dropLineEnds (s : String) : String :=
  .ofList (s.toList.reverse.dropWhile isLineEnd).reverse

/-- The bytes up to a line feed, and those after it. -/
def cutLine (input : List UInt8) : List UInt8 × List UInt8 :=
  (input.takeWhile (· ≠ 10), (input.dropWhile (· ≠ 10)).drop 1)

/-- What a line says, without its line end; nothing if it is no text. -/
def lineText (line : List UInt8) : Option String :=
  (String.fromUTF8? ⟨line.toArray⟩).map dropLineEnds

end Text
end TrustTrial
