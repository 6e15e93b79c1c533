/-!
# TrustTrial.Text.Paint

Text for a terminal that shows colours, and the same text for one that does not.
-/

namespace TrustTrial
namespace Text

inductive Ink where
  | dimmed
  | red
  | cyan
  | boldGreen
  | boldBlue
  | boldWhite
  deriving DecidableEq, Repr

/-- The parameters of the control sequence that switches to an ink. -/
def Ink.code : Ink → String
  | .dimmed => "2"
  | .red => "31"
  | .cyan => "36"
  | .boldGreen => "1;32"
  | .boldBlue => "1;34"
  | .boldWhite => "1;37"

def paint (colored : Bool) (ink : Ink) (text : String) : String :=
  if colored then "\x1b[" ++ ink.code ++ "m" ++ text ++ "\x1b[0m" else text

end Text
end TrustTrial
