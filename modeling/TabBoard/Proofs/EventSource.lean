import TabBoard.Json.Reader
import TabBoard.Proofs.Percent

/-!
# Reading an event stream

How a client reads a stream of events. The octets are UTF-8, perhaps behind a byte order mark. A
line ends with a carriage return, a line feed or both; it is a comment, or a field with its value
behind a colon and perhaps one space, and an empty line dispatches what the fields before it made.
An event without data is not dispatched, and neither is one that the end of the stream cuts short.

A line feed ends the text in front of it (`linesFrom_append`), a field changes the event under way
(`Reader.line_field`), and an empty line behind data hands it out (`Reader.line_dispatch`).
-/

namespace TabBoard

namespace EventSource

/-- What a client is handed. -/
structure Message where
  event : String
  data : String
  /-- The last identifier that the stream gave. -/
  id : String := ""
  deriving Repr, DecidableEq

/-- The lines of a stream, without one that does not end; `line` holds the characters of the line
under way, last first. -/
def linesFrom (line : List Char) : List Char → List (List Char)
  | [] => []
  | '\r' :: '\n' :: cs => line.reverse :: linesFrom [] cs
  | '\r' :: cs => line.reverse :: linesFrom [] cs
  | '\n' :: cs => line.reverse :: linesFrom [] cs
  | c :: cs => linesFrom (c :: line) cs

def withoutMark : List Char → List Char
  | '\uFEFF' :: cs => cs
  | cs => cs

/-- What the lines so far made: the event under way, and what stays from event to event. -/
structure Reader where
  event : List Char := []
  data : List Char := []
  id : List Char := []
  /-- After how many milliseconds to connect again, if the stream said so. -/
  retry : Option Nat := none

namespace Reader

/-- Takes a field. A field of another name is ignored. -/
def field (r : Reader) (name value : List Char) : Reader :=
  if name = "event".toList then { r with event := value }
  else if name = "data".toList then { r with data := r.data ++ value ++ ['\n'] }
  else if name = "id".toList then if '\x00' ∈ value then r else { r with id := value }
  else if name = "retry".toList then
    if value ≠ [] ∧ value.all Char.isDigit then { r with retry := some (Json.natOfDigits value) }
    else r
  else r

/-- A value without the space in front. -/
def unspaced : List Char → List Char
  | ' ' :: cs => cs
  | cs => cs

/-- Hands out the event under way, if it has data. -/
def dispatch (r : Reader) : Option Message × Reader :=
  (if r.data = [] then none
    else
      some {
        event := if r.event = [] then "message" else String.ofList r.event
        data := String.ofList (if r.data.getLast? = some '\n' then r.data.dropLast else r.data)
        id := String.ofList r.id },
    { r with event := [], data := [] })

def line (r : Reader) : List Char → Option Message × Reader
  | [] => r.dispatch
  | ':' :: _ => (none, r)
  | cs =>
    match Text.splitOnce ':' cs with
    | some (name, value) => (none, r.field name (unspaced value))
    | none => (none, r.field cs [])

def run (r : Reader) : List (List Char) → List Message
  | [] => []
  | l :: ls => (r.line l).1.toList ++ (r.line l).2.run ls

end Reader

/-- What is handed out for a text. -/
def messagesOf (cs : List Char) : List Message := Reader.run {} (linesFrom [] (withoutMark cs))

/-- What is handed out for a stream of octets. -/
def messages (octets : Text.Utf8.Octets) : List Message :=
  messagesOf (Text.Utf8.decodeLossy octets).toList

/-- Every line break counts, data of several lines is joined, and what is not dispatched is lost. -/
example :
    messagesOf "data: a\r\ndata:b\r\r: note\nevent: tick\nid: 1\ndata\n\ndata: lost\n".toList =
      [⟨"message", "a\nb", ""⟩, ⟨"tick", "", "1"⟩] := by
  decide +kernel

/-! ## Lines -/

/-- Characters that stay on their line. -/
def OneLine (cs : List Char) : Prop := ∀ c ∈ cs, c ≠ '\n' ∧ c ≠ '\r'

instance (cs : List Char) : Decidable (OneLine cs) :=
  List.decidableBAll _ cs

theorem linesFrom_append {cs : List Char} (h : OneLine cs) (line rest : List Char) :
    linesFrom line (cs ++ '\n' :: rest) = (line.reverse ++ cs) :: linesFrom [] rest := by
  induction cs generalizing line with
  | nil => simp [linesFrom]
  | cons c cs ih =>
    obtain ⟨⟨hfeed, hreturn⟩, hcs⟩ := List.forall_mem_cons.1 h
    rw [List.cons_append, linesFrom.eq_def]
    split
    · next heq => cases heq
    · next heq => exact absurd (List.cons.inj heq).1 hreturn
    · next heq => exact absurd (List.cons.inj heq).1 hreturn
    · next heq => exact absurd (List.cons.inj heq).1 hfeed
    · next heq =>
      obtain ⟨rfl, rfl⟩ := List.cons.inj heq
      rw [ih hcs]
      simp

/-! ## Fields and events -/

variable {name value : List Char}

/-- The name of a field is not empty and has no colon in it. -/
theorem Reader.line_field (r : Reader) (hne : name ≠ []) (hcolon : ':' ∉ name) (value : List Char) :
    r.line (name ++ ':' :: ' ' :: value) = (none, r.field name value) := by
  have hsplit : Text.splitOnce ':' (name ++ ':' :: ' ' :: value) = some (name, ' ' :: value) :=
    Text.splitOnce_append hcolon _
  obtain ⟨c, cs, rfl⟩ := List.exists_cons_of_ne_nil hne
  rw [line.eq_def]
  split
  · next heq => cases heq
  · next heq => exact absurd (List.mem_cons.2 (.inl (List.cons.inj heq).1.symm)) hcolon
  · rw [hsplit]
    rfl

theorem Reader.line_event (r : Reader) (value : List Char) :
    r.line ("event".toList ++ ':' :: ' ' :: value) = (none, { r with event := value }) :=
  r.line_field (by decide) (by decide) value

theorem Reader.line_data (r : Reader) (value : List Char) :
    r.line ("data".toList ++ ':' :: ' ' :: value) =
      (none, { r with data := r.data ++ value ++ ['\n'] }) :=
  r.line_field (by decide) (by decide) value

theorem Reader.line_retry (r : Reader) (hne : value ≠ [])
    (hdigits : value.all Char.isDigit = true) :
    r.line ("retry".toList ++ ':' :: ' ' :: value) =
      (none, { r with retry := some (Json.natOfDigits value) }) := by
  rw [r.line_field (by decide) (by decide), field, if_neg (by decide), if_neg (by decide),
    if_neg (by decide), if_pos rfl, if_pos ⟨hne, hdigits⟩]

theorem Reader.line_dispatch (r : Reader) (hevent : r.event ≠ [])
    (hdata : r.data = value ++ ['\n']) :
    r.line [] =
      (some ⟨String.ofList r.event, String.ofList value, String.ofList r.id⟩,
        { r with event := [], data := [] }) := by
  have hne : r.data ≠ [] := by simp [hdata]
  have hlast : r.data.getLast? = some '\n' := by simp [hdata]
  rw [line, dispatch, if_neg hne, if_neg hevent, if_pos hlast, hdata, List.dropLast_concat]

end EventSource

end TabBoard
