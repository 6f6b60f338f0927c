import TabBoard.Text.Blank
import TabBoard.Text.LowerCase

/-!
# Names used in the configuration

Log levels and the ways in which statuses are delivered. A level is read leniently: case and blanks
around it do not matter, and an unknown one is `info`. A delivery has to be one of two; from the
environment case and blanks around it do not matter, in a file it is spelled exactly.
-/

namespace TabBoard.Config

/-- How much is logged. -/
inductive LogLevel where
  | off
  | error
  | warn
  | info
  | debug
  | trace
  deriving Repr, DecidableEq, Inhabited

namespace LogLevel

def name : LogLevel → String
  | .off => "OFF"
  | .error => "ERROR"
  | .warn => "WARN"
  | .info => "INFO"
  | .debug => "DEBUG"
  | .trace => "TRACE"

/-- The level of the given name; `info` for any other text. -/
def ofText (s : String) : LogLevel :=
  match Text.lowerCase (Text.trimmed s) with
  | "off" => .off
  | "error" => .error
  | "warn" => .warn
  | "warning" => .warn
  | "debug" => .debug
  | "trace" => .trace
  | _ => .info

def rank : LogLevel → Nat
  | .off => 0
  | .error => 1
  | .warn => 2
  | .info => 3
  | .debug => 4
  | .trace => 5

end LogLevel

inductive Transport where
  /-- As event streams of this server. -/
  | direct
  /-- Through an external gateway. -/
  | gateway
  deriving Repr, DecidableEq, Inhabited

namespace Transport

def name : Transport → String
  | .direct => "direct"
  | .gateway => "gateway"

/-- The names as they stand in a file. -/
def table : List (String × Transport) := [("direct", .direct), ("gateway", .gateway)]

/-- The delivery of the given name, or the name in lower case if there is none. -/
def ofText (s : String) : Except String Transport :=
  let t := Text.lowerCase (Text.trimmed s)
  match table.lookup t with
  | some transport => .ok transport
  | none => .error t

end Transport

end TabBoard.Config
