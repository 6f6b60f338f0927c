import TabBoard.Catalog
import TabBoard.Restart.Error

/-!
# Errors of the HTTP interface

Each refusal has a status, a code for programs and a message for people; the body is an object
`error` with the last two.
-/

namespace TabBoard.Http

inductive Error where
  | notFound (message : String)
  | notRestartable (message : String)
  | restartInProgress (message : String)
  | unauthorized (message : String)
  | badRequest (message : String)
  | internal (message : String)
  deriving Repr, DecidableEq, Inhabited

namespace Error

def status : Error → Nat
  | .notFound _ => 404
  | .notRestartable _ => 400
  | .restartInProgress _ => 409
  | .unauthorized _ => 401
  | .badRequest _ => 400
  | .internal _ => 500

def code : Error → String
  | .notFound _ => "NOT_FOUND"
  | .notRestartable _ => "NOT_RESTARTABLE"
  | .restartInProgress _ => "RESTART_IN_PROGRESS"
  | .unauthorized _ => "UNAUTHORIZED"
  | .badRequest _ => "BAD_REQUEST"
  | .internal _ => "INTERNAL_ERROR"

def message : Error → String
  | .notFound m => m
  | .notRestartable m => m
  | .restartInProgress m => m
  | .unauthorized m => m
  | .badRequest m => m
  | .internal m => m

def body (e : Error) : Json :=
  .ofMembers [("error", .ofMembers [("code", .text e.code), ("message", .text e.message)])]

/-- The answer to a request for a tab that the catalog does not offer. -/
def ofCatalog : Catalog.Error → Error
  | .unknownTab index => .notFound s!"Tab {index} not found"
  | .notRestartable index => .notRestartable s!"Tab {index} has no deployment to restart"
  | e => .internal e.message

def ofUnknownTab (e : UnknownTab) : Error := .notFound s!"Tab {e.index} not found"

/-- The answer to a restart that was refused. -/
def ofRestart : Restart.Error → Error
  | .inProgress key => .restartInProgress s!"A restart of {key.toText} is already in progress"
  | .notRestartable tab => .notRestartable s!"Tab {tab} has no deployment to restart"
  | .status cause => ofUnknownTab cause
  | e => .internal e.statusMessage

end Error

end TabBoard.Http
