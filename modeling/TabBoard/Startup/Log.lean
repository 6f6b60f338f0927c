import TabBoard.Config.Names
import TabBoard.Files.Basic
import TabBoard.Moment

/-!
# The log

A line of the log tells when it was written, how urgent it is, what it says, and where it comes
from. The log goes to a file or to the terminal; only there a level may be coloured. Lines beyond
the level of the log are not written.
-/

namespace TabBoard

/-- A monad with a clock and a terminal. -/
class Terminal (m : Type → Type) where
  now : m Moment
  /-- Prints a line. -/
  print : String → m Unit

namespace Startup

open Config (LogLevel)

abbrev Notice := LogLevel × String

structure Log where
  level : LogLevel := .info
  /-- The file of the log; the terminal if there is none. -/
  file : Option String := none
  colored : Bool := true
  deriving Repr, DecidableEq, Inhabited

namespace Log

/-- The number by which a terminal knows the colour of a level. -/
def color : LogLevel → Nat
  | .error => 31
  | .warn => 33
  | .debug => 34
  | .trace => 35
  | _ => 32

def levelText (log : Log) (level : LogLevel) : String :=
  if log.colored && log.file.isNone then
    s!"\x1b[{color level}m" ++ level.name ++ "\x1b[0m"
  else level.name

/-- A line of the log. What is logged here has no place that it comes from. -/
def line (log : Log) (now : Moment) (notice : Notice) : String :=
  s!"[{now.toNanosUtc} - {log.levelText notice.1}] {notice.2} [unknown:0]"

/-- A text in two, around the first place where a mark stands. -/
def cutAt (mark : List Char) : List Char → Option (List Char × List Char)
  | [] => none
  | c :: rest =>
    if mark.isPrefixOf (c :: rest) then some ([], (c :: rest).drop mark.length)
    else (cutAt mark rest).map fun (before, behind) => (c :: before, behind)

def ofLine? (line : String) : Option (String × String) := do
  let (start, rest) ← cutAt [' ', '-', ' '] line.toList
  let (level, rest) ← cutAt [']', ' '] rest
  let (place, message) ← cutAt ['[', ' '] rest.reverse
  if start.head? = some '[' ∧ place.head? = some ']' then
    some (String.ofList level, String.ofList message.reverse)
  else none

def admits (log : Log) (level : LogLevel) : Bool := level.rank ≤ log.level.rank

def target (log : Log) : String := log.file.getD "stdout"

variable {m : Type → Type} [Monad m] [FileSystem m] [Terminal m]

/-- Makes the file of the log, if there is one, and says whether that was possible. -/
def start (log : Log) : m Bool :=
  match log.file with
  | some path => FileSystem.append path ""
  | none => pure true

def write (log : Log) (notice : Notice) : m Unit := do
  if log.admits notice.1 then
    let text := log.line (← Terminal.now) notice
    match log.file with
    | some path => let _ ← FileSystem.append path (text ++ "\n")
    | none => Terminal.print text

def writeAll (log : Log) : List Notice → m Unit
  | [] => pure ()
  | notice :: notices => do
    log.write notice
    log.writeAll notices

end Log

end Startup

end TabBoard
