import TabBoard.Auth.Extract
import TabBoard.Auth.Token
import TabBoard.Delivery.Registry

/-!
# Who is behind a connection

Without authentication everyone is the local user. With it, a connection belongs to the subject of
the access token that its request carried; a request without an acceptable token leaves it with
nobody.
-/

namespace TabBoard.Auth

structure Policy where
  enabled : Bool := false
  validator : Option Validator := none
  cookieName : String := "access_token"
  deriving Repr, DecidableEq, Inhabited

/-- The subject of a request with the given headers at the time `now`. -/
def Policy.subject? (p : Policy) (now : Nat) (headers : Headers) : Option String :=
  if !p.enabled then some localUser
  else
    match p.validator, accessToken headers p.cookieName with
    | some v, .ok token => ((v.validate now token).map (·.subject)).toOption
    | _, _ => none

end TabBoard.Auth
