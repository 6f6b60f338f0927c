import TabBoard.Auth.Error
import TabBoard.Json.Decode
import TabBoard.Text.Blank

/-!
# Claims

What an access token says about its bearer. The subject has to have something in it that is not
blank, and at most 256 octets.
-/

namespace TabBoard.Auth

structure Claims where
  subject : String
  /-- Seconds since 1970. -/
  expires : Int
  issued : Int
  roles : List String := []
  deriving Repr, DecidableEq, Inhabited

/-- The length of the longest subject, in octets. -/
def maxSubjectSize : Nat := 256

namespace Claims

/-- The claims, if their subject can be used. -/
def check (c : Claims) : Except Error Claims :=
  if Text.isBlankText c.subject then .error .emptySubject
  else if maxSubjectSize < c.subject.utf8ByteSize then .error .longSubject
  else .ok c

def decoder : Json.Decoder Claims := fun depth j => do
  let r ← Json.record ["sub", "exp", "iat", "roles"] depth j
  let subject ← r.required "sub" .text
  let expires ← r.required "exp" .int64
  let issued ← r.required "iat" .int64
  let roles ← r.getD "roles" [] (.list .text)
  return { subject, expires, issued, roles }

end Claims

end TabBoard.Auth
