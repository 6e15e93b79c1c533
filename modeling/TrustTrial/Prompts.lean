import TrustTrial.Text.Quoted

/-!
# TrustTrial.Prompts

What a client is told on its input. It asks in a fixed order: for a payload such as a confirmation,
then for a user name and a password. Every answer is a line, but a payload that comes last is sent
without a line end.
-/

namespace TrustTrial

structure Credentials where
  username : String
  password : String
  deriving DecidableEq

namespace Credentials

def hidden : String := Text.quoted "<redacted>"

/-- The credentials on one line, without the password. -/
def redacted (c : Credentials) : String :=
  "Credentials \x7b username: " ++ Text.quoted c.username ++ ", password: " ++ hidden ++ " \x7d"

/-- The credentials on several lines, without the password. -/
def redactedLines (c : Credentials) : String :=
  "Credentials \x7b\n    username: " ++ Text.quoted c.username ++ ",\n    password: " ++ hidden ++
    ",\n\x7d"

end Credentials

inductive Answer where
  | payload (text : String)
  | username (text : String)
  | password (text : String)
  deriving DecidableEq

def Answer.text : Answer → String
  | .payload text => text
  | .username text => text
  | .password text => text

namespace Prompts

/-- The answers for a payload and credentials, in the order of the questions. -/
def plan (payload : Option String) (credentials : Option Credentials) : List Answer :=
  (match payload with
  | none => []
  | some text => [.payload text]) ++
  (match credentials with
  | none => []
  | some c => [.username c.username, .password c.password])

def encode : List Answer → String
  | [] => ""
  | [.payload text] => text
  | answer :: answers => answer.text ++ "\n" ++ encode answers

end Prompts
end TrustTrial
