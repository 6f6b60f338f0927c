import TabBoard.Auth.Error
import TabBoard.Text.Blank

/-!
# Finding the access token

The token is looked for in the headers that the gateway forwards: first in the `authorization`
headers, as what follows the scheme `Bearer`, then in the cookies, as the value of a cookie of a
given name. The first one that is not blank counts, and a bearer token wins wherever it stands.
-/

namespace TabBoard.Auth

/-- Header names and values, in order. -/
abbrev Headers := List (String × String)

/-- The text without blanks at its ends, unless nothing is left. -/
def nonBlank (cs : List Char) : Option String :=
  match Text.trimBy Text.isBlank cs with
  | [] => none
  | cs => some (String.ofList cs)

def bearer? (value : String) : Option String :=
  match Text.splitOnce ' ' value.toList with
  | some (scheme, token) =>
    if Text.sameIgnoringCase (String.ofList scheme) "bearer" then nonBlank token else none
  | none => none

/-- The value of one pair of a `cookie` header, if it has the given name. -/
def cookieValue? (name : String) (pair : List Char) : Option String :=
  match Text.splitOnce '=' (Text.trimBy Text.isBlank pair) with
  | some (key, value) =>
    if String.ofList (Text.trimBy Text.isBlank key) = name then nonBlank value else none
  | none => none

/-- The value of the first cookie of the given name that is not blank. -/
def cookie? (name value : String) : Option String :=
  (Text.splitAll ';' value.toList).findSome? (cookieValue? name)

/-- The values of the headers of the given name, whatever its case. -/
def valuesOf (name : String) (headers : Headers) : List String :=
  (headers.filter fun h => Text.sameIgnoringCase h.1 name).map (·.2)

def accessToken (headers : Headers) (cookieName : String) : Except Error String :=
  match (valuesOf "authorization" headers).findSome? bearer? with
  | some token => .ok token
  | none =>
    match (valuesOf "cookie" headers).findSome? (cookie? cookieName) with
    | some token => .ok token
    | none => .error .missingToken

end TabBoard.Auth
