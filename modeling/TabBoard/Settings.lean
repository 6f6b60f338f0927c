import TabBoard.Auth.Subject
import TabBoard.Config.Names

/-!
# Settings that requests look at
-/

namespace TabBoard

/-- What the answers to requests depend on. -/
structure Settings where
  transport : Config.Transport := .direct
  /-- The length of a silence that a heartbeat ends, in milliseconds. -/
  heartbeat : Nat := 5000
  /-- In production callbacks have to bring the secret. -/
  production : Bool := false
  callbackSecret : Option String := none
  auth : Auth.Policy := {}
  deriving Repr, DecidableEq, Inhabited

end TabBoard
