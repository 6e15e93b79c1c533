import TrustTrial.Json.Value

/-!
# TrustTrial.Json.Printer

JSON values as text, one member a line and two blanks for every level.
-/

namespace TrustTrial
namespace Json

def hexDigit (n : Nat) : Char := Nat.digitChar n

/-- A character inside a text: quotes, backslashes and controls are escaped. -/
def writeChar (c : Char) : List Char :=
  if c = '"' then ['\\', '"']
  else if c = '\\' then ['\\', '\\']
  else if c = '\x08' then ['\\', 'b']
  else if c = '\x0c' then ['\\', 'f']
  else if c = '\n' then ['\\', 'n']
  else if c = '\r' then ['\\', 'r']
  else if c = '\t' then ['\\', 't']
  else if c.toNat < 0x20 then
    ['\\', 'u', '0', '0', hexDigit (c.toNat / 16), hexDigit (c.toNat % 16)]
  else [c]

def writeText (s : String) : List Char := '"' :: s.toList.flatMap writeChar ++ ['"']

/-- The line break before a member at a level. -/
def newline (level : Nat) : List Char := '\n' :: List.replicate (2 * level) ' '

mutual

def write (level : Nat) : Value → List Char
  | .null => ['n', 'u', 'l', 'l']
  | .boolean true => ['t', 'r', 'u', 'e']
  | .boolean false => ['f', 'a', 'l', 's', 'e']
  | .natural n => Nat.toDigits 10 n
  | .decimal written => written.toList
  | .text s => writeText s
  | .list [] => ['[', ']']
  | .list (v :: vs) =>
    '[' :: newline (level + 1) ++ write (level + 1) v ++ writeItems (level + 1) vs ++
      newline level ++ [']']
  | .object [] => ['\x7b', '\x7d']
  | .object (f :: fs) =>
    '\x7b' :: newline (level + 1) ++ writeField (level + 1) f ++ writeFields (level + 1) fs ++
      newline level ++ ['\x7d']

def writeItems (level : Nat) : List Value → List Char
  | [] => []
  | v :: vs => ',' :: newline level ++ write level v ++ writeItems level vs

def writeField (level : Nat) : String × Value → List Char
  | (name, v) => writeText name ++ [':', ' '] ++ write level v

def writeFields (level : Nat) : List (String × Value) → List Char
  | [] => []
  | f :: fs => ',' :: newline level ++ writeField level f ++ writeFields level fs

end

def Value.pretty (v : Value) : String := .ofList (write 0 v)

end Json
end TrustTrial
