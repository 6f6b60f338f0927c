/-!
# Observers

Handlers run in the order in which they subscribed. A handler that breaks off is noted with its
position and skipped; the others still run, and the one who published does not notice. Only where
disposing of what a handler left breaks off in turn, the publication ends there, and whoever
published breaks off as well: panics are caught while handlers run, but not where they are disposed
of.

`notify` is this rule for handlers that change a state of any kind. `Observers` are handlers that
may themselves subscribe and publish where they run: what one does with an event is a `Script`, and
a publication runs the handlers that were there when it began. A handler publishes smaller events
only, so that every publication comes to an end. `Bus` has handlers that record what they are given.
-/

namespace TabBoard

/-- What a handler left behind when it broke off. -/
inductive Panic where
  | text (reason : String)
  | other
  /-- No text, and whoever disposes of it breaks off with the next one. -/
  | bomb (next : Panic)
  deriving Repr, DecidableEq, Inhabited

namespace Panic

def reason : Panic → String
  | .text reason => reason
  | .other | .bomb _ => "non-string panic"

/-- What disposing of a panic breaks off with, if it does. -/
def disposal? : Panic → Option Panic
  | .text _ | .other => none
  | .bomb next => some next

end Panic

/-- Runs handlers in order, the first of them at position `pos`. `run` says how a handler ends and
what it makes of the state, `note` records one that broke off. The number is how many did not. -/
def notify {η σ : Type} (run : η → σ → Option Panic × σ) (note : Nat → Panic → σ → σ) :
    Nat → List η → σ → Except Panic Nat × σ
  | _, [], s => (.ok 0, s)
  | pos, h :: hs, s =>
    match run h s with
    | (none, s) =>
      let (n, s) := notify run note (pos + 1) hs s
      (n.map (· + 1), s)
    | (some p, s) =>
      let s := note pos p s
      match p.disposal? with
      | some q => (.error q, s)
      | none => notify run note (pos + 1) hs s

/-! ## Handlers that subscribe and publish -/

namespace Observers

/-- What a handler does with the event `e`, step by step. -/
inductive Script (σ : Type) {ε : Type} [WellFoundedRelation ε] : ε → Type where
  | finish {e : ε} : Script σ e
  | panic {e : ε} (p : Panic) : Script σ e
  /-- Changes what the handlers share, and goes on with what was there before. -/
  | share {e : ε} (change : σ → σ) (rest : σ → Script σ e) : Script σ e
  /-- Counts the handlers. -/
  | count {e : ε} (rest : Nat → Script σ e) : Script σ e
  | subscribe {e : ε} (h : (e' : ε) → Script σ e') (rest : Script σ e) : Script σ e
  /-- Publishes a smaller event, and goes on with the number of handlers that did not break off. If
  the publication breaks off, so does the handler. -/
  | publish {e : ε} (e' : ε) (smaller : WellFoundedRelation.rel e' e)
      (rest : Nat → Script σ e) : Script σ e

/-- What is done with each event. -/
abbrev Handler (σ ε : Type) [WellFoundedRelation ε] := (e : ε) → Script σ e

/-- What happens among observers. Publications are numbered in the order in which they begin. -/
inductive Entry (σ ε : Type) [WellFoundedRelation ε] where
  | began (publication : Nat) (event : ε)
  | ran (publication : Nat) (h : Handler σ ε)
  | broke (publication pos : Nat) (p : Panic)
  | subscribed (h : Handler σ ε)

end Observers

/-- Handlers in the order in which they subscribed, with what they share and what has happened. -/
structure Observers (σ ε : Type) [WellFoundedRelation ε] where
  name : String
  handlers : List (Observers.Handler σ ε) := []
  shared : σ
  /-- The number of publications that have begun. -/
  begun : Nat := 0
  log : List (Observers.Entry σ ε) := []

def Panic.warning (name : String) (pos : Nat) (p : Panic) : String :=
  s!"{name} observer #{pos} panicked: {p.reason}"

namespace Observers

variable {σ ε : Type} [WellFoundedRelation ε]

def size (b : Observers σ ε) : Nat := b.handlers.length

def write (b : Observers σ ε) (entry : Entry σ ε) : Observers σ ε :=
  { b with log := b.log ++ [entry] }

def subscribe (b : Observers σ ε) (h : Handler σ ε) : Observers σ ε :=
  { b.write (.subscribed h) with handlers := b.handlers ++ [h] }

def start (b : Observers σ ε) (e : ε) : Observers σ ε :=
  { b.write (.began b.begun e) with begun := b.begun + 1 }

/-- Notes that the handler at a position broke off. -/
def note (publication pos : Nat) (p : Panic) (b : Observers σ ε) : Observers σ ε :=
  b.write (.broke publication pos p)

/-- Does what a handler does. `again` publishes smaller events. -/
def perform {e : ε}
    (again : (e' : ε) → WellFoundedRelation.rel e' e → Observers σ ε →
      Except Panic Nat × Observers σ ε) :
    Script σ e → Observers σ ε → Option Panic × Observers σ ε
  | .finish, b => (none, b)
  | .panic p, b => (some p, b)
  | .share change rest, b => perform again (rest b.shared) { b with shared := change b.shared }
  | .count rest, b => perform again (rest b.size) b
  | .subscribe h rest, b => perform again rest (b.subscribe h)
  | .publish e' smaller rest, b =>
    match again e' smaller b with
    | (.ok n, b) => perform again (rest n) b
    | (.error p, b) => (some p, b)

/-- Publishes an event to the handlers that are there now. The number is how many of them did not
break off. -/
def publish (e : ε) (b : Observers σ ε) : Except Panic Nat × Observers σ ε :=
  notify (fun h s => perform (fun e' _smaller s => publish e' s) (h e) (s.write (.ran b.begun h)))
    (note b.begun) 0 b.handlers (b.start e)
termination_by e
decreasing_by exact _smaller

/-- The warning that an entry stands for. -/
def Entry.warning? (name : String) : Entry σ ε → Option String
  | .broke _ pos p => some (p.warning name pos)
  | _ => none

def warnings (b : Observers σ ε) : List String := b.log.filterMap (Entry.warning? b.name)

end Observers

/-! ## Handlers that record -/

namespace Bus

open Observers (Script)

/-- The number that stands for what happened. -/
structure Event where
  value : Int
  deriving Repr, DecidableEq, Inhabited

/-- Events that are not positive have none below them. -/
instance : WellFoundedRelation Event := measure (·.value.toNat)

/-- What a handler does with an event once it has recorded it. -/
inductive Reaction where
  | nothing
  | panic (p : Panic)
  /-- Subscribes one more handler. -/
  | grow
  /-- Publishes the event before, if the event is positive. -/
  | republish
  deriving Repr, DecidableEq, Inhabited

/-- An event as recorded by a handler, under the handler's mark: its position when it subscribed, or
nothing if another handler subscribed it. -/
structure Call where
  mark : Option Nat
  event : Int
  deriving Repr, DecidableEq, Inhabited

/-- Records the event, and goes on. -/
def record (mark : Option Nat) (e : Event) (rest : Script (List Call) e) : Script (List Call) e :=
  .share (· ++ [⟨mark, e.value⟩]) fun _ => rest

/-- What is done with an event once it is recorded. -/
def Reaction.script (r : Reaction) (e : Event) : Script (List Call) e :=
  match r with
  | .nothing => .finish
  | .panic p => .panic p
  | .grow => .subscribe (fun e' => record none e' .finish) .finish
  | .republish =>
    if h : 0 < e.value then
      .publish ⟨e.value - 1⟩ ((Int.toNat_lt_toNat h).2 (Int.sub_one_lt_of_le (Int.le_refl _)))
        fun _ => .finish
    else .finish

end Bus

/-- Observers that record what they are given. -/
structure Bus extends Observers (List Bus.Call) Bus.Event where
  shared := []

namespace Bus

def calls (b : Bus) : List Call := b.shared

def subscribe (b : Bus) (r : Reaction) : Bus where
  toObservers := b.toObservers.subscribe fun e => record (some b.size) e (r.script e)

def publish (event : Int) (b : Bus) : Except Panic Nat × Bus :=
  let (n, observers) := b.toObservers.publish ⟨event⟩
  (n, { toObservers := observers })

end Bus

end TabBoard
