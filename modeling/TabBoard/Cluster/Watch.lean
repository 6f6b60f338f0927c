import TabBoard.Cluster.Error
import TabBoard.Cluster.Rollout

/-!
# Watching a deployment

A watch is a stream of lines, each a JSON object with a `type` and an `object`. `Lines` collects the
octets as they arrive and gives out one line at a time; lines of nothing but blanks are skipped, and
the last line needs no end. `Event.ofLine` reads one line.

The object is read as its type says. If the type stands behind it, the object has to be kept until
then, so all of it has to be readable; if the type comes first, what is not needed is skipped.

The error for a line says that the line holds no event. The cause, which the program adds behind a
colon in the words of its JSON reader, is left out, so all lines that hold no event give one error.
-/

namespace TabBoard.Cluster

open Text.Utf8 (Octets)

inductive Event where
  | added (object : Deployment)
  | modified (object : Deployment)
  | deleted (object : Deployment)
  | bookmark (object : Json)
  | error (status : Status)
  deriving Repr, Inhabited

namespace Event

inductive Kind where
  | added
  | modified
  | deleted
  | bookmark
  | error
  deriving Repr, DecidableEq

def Kind.table : List (String × Kind) :=
  [("ADDED", .added), ("MODIFIED", .modified), ("DELETED", .deleted), ("BOOKMARK", .bookmark),
    ("ERROR", .error)]

def Kind.name : Kind → String
  | .added => "ADDED"
  | .modified => "MODIFIED"
  | .deleted => "DELETED"
  | .bookmark => "BOOKMARK"
  | .error => "ERROR"

def kind : Event → Kind
  | .added _ => .added
  | .modified _ => .modified
  | .deleted _ => .deleted
  | .bookmark _ => .bookmark
  | .error _ => .error

def ofKind (kind : Kind) : Json.Decoder Event := fun depth j =>
  match kind with
  | .added => (Deployment.decoder depth j).map .added
  | .modified => (Deployment.decoder depth j).map .modified
  | .deleted => (Deployment.decoder depth j).map .deleted
  | .bookmark => (Json.Decoder.value depth j).map .bookmark
  | .error => (Status.decoder depth j).map .error

/-- The first of the two members, in document order, is the object. -/
def objectFirst : List (Option String × Json) → Bool
  | (some "object", _) :: _ => true
  | (some "type", _) :: _ => false
  | _ :: members => objectFirst members
  | [] => false

/-- An event: an object with a type, or an array of the two. -/
def decoder : Json.Decoder Event := fun depth j => do
  let r ← Json.record ["type", "object"] depth j
  let kind ← r.required "type" (.oneOf Kind.table)
  match j with
  | .object members =>
    if objectFirst members then
      let _ ← r.required "object" .value
  | _ => pure ()
  r.required "object" (ofKind kind)

def ofLine (line : Octets) : Except Error Event :=
  match (Json.Document.ofOctets line).decode decoder with
  | .ok e => .ok e
  | .error _ => .error (.undecodable "invalid watch event")

end Event

/-! ## Lines -/

/-- The octets of the line feed and of the other blanks of ASCII. -/
def lineFeed : UInt8 := 10

def isBlankOctet (b : UInt8) : Bool := b == 32 || b == 9 || b == 10 || b == 12 || b == 13

/-- The octets that have arrived and were not given out yet. -/
structure Lines where
  pending : Octets := []
  deriving Repr, DecidableEq, Inhabited

namespace Lines

def push (s : Lines) (chunk : Octets) : Lines := ⟨s.pending ++ chunk⟩

/-- The first line that ended and is not blank, with the octets behind it. Otherwise nothing, with
what is left once the blank lines are gone. -/
def nextFrom (pending : Octets) : Option Octets × Octets :=
  match _h : pending.dropWhile (· != lineFeed) with
  | [] => (none, pending)
  | _ :: rest =>
    let line := pending.takeWhile (· != lineFeed)
    if line.all isBlankOctet then nextFrom rest else (some line, rest)
termination_by pending.length
decreasing_by
  have := (List.dropWhile_sublist (· != lineFeed) (l := pending)).length_le
  rw [_h, List.length_cons] at this
  exact this

/-- The event of the next line that has ended. -/
def next (s : Lines) : Option (Except Error Event) × Lines :=
  let (line, rest) := nextFrom s.pending
  (line.map Event.ofLine, ⟨rest⟩)

/-- The event of the next line, or of what is left, once nothing more will arrive. -/
def finish (s : Lines) : Option (Except Error Event) × Lines :=
  match s.next with
  | (some event, s) => (some event, s)
  | (none, s) =>
    if s.pending.all isBlankOctet then (none, {}) else (some (Event.ofLine s.pending), {})

end Lines

end TabBoard.Cluster
