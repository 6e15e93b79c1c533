import TrustTrial.Text.Blank
import TrustTrial.Text.Lowercase

/-!
# TrustTrial.ServerChoice

Which server a trial runs against: a remote one by its address, or the one that the client's own
configuration embeds. The choice is made once from a text, in which neither blanks around it nor
the case of its letters matter.
-/

namespace TrustTrial

inductive ServerChoice where
  | remote (url : String)
  | embedded
  deriving DecidableEq, Repr

namespace ServerChoice

/-- No text, an empty one and the default server mean the embedded server. -/
def ofText (server : Option String) (defaultServer : String) : ServerChoice :=
  match server with
  | none => .embedded
  | some server =>
    let url := Text.lowercase (Text.trim server)
    if url.isEmpty ∨ url = Text.lowercase (Text.trim defaultServer) then .embedded
    else .remote url

def isEmbedded : ServerChoice → Bool
  | .remote _ => false
  | .embedded => true

def describe : ServerChoice → String
  | .remote url => url
  | .embedded => "local"

end ServerChoice
end TrustTrial
