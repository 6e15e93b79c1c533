import TrustTrial.Text.Escaped

/-!
# TrustTrial.Text.Quoted

Text in double quotes as messages show it: quotes, backslashes and the common controls by a
backslash and a letter, every other escaped character by its code point in braces. Lists stand in
brackets and sets in braces.
-/

namespace TrustTrial
namespace Text

def escapeChar (c : Char) : List Char :=
  if c = '\x00' then ['\\', '0']
  else if c = '\t' then ['\\', 't']
  else if c = '\r' then ['\\', 'r']
  else if c = '\n' then ['\\', 'n']
  else if c = '\\' then ['\\', '\\']
  else if c = '"' then ['\\', '"']
  else if isEscaped c then ['\\', 'u', '\x7b'] ++ Nat.toDigits 16 c.toNat ++ ['\x7d']
  else [c]

def quoted (s : String) : String := .ofList ('"' :: s.toList.flatMap escapeChar ++ ['"'])

def quotedList (xs : List String) : String := "[" ++ ", ".intercalate (xs.map quoted) ++ "]"

def quotedSet (xs : List String) : String := "\x7b" ++ ", ".intercalate (xs.map quoted) ++ "\x7d"

end Text
end TrustTrial
