import BoxArrow.Engine

/-!
# Pacing of renders

While a text is being edited, only its latest state is rendered, and only once it has rested for a
while. A request carries a ticket; the result of a request counts only as long as no later request
has been issued. Times are milliseconds.

## Main definitions

* `BoxArrow.Sequencer` — issues tickets and passes on the results that are not stale.
* `BoxArrow.Debouncer` — turns edits into requests.
-/

namespace BoxArrow

/-- The number of a render request. Tickets are counted from one. -/
structure Ticket where
  number : Nat
deriving DecidableEq, Repr

/-- Issues tickets in ascending order. -/
structure Sequencer where
  /-- How many tickets have been issued. -/
  issued : Nat
deriving DecidableEq, Repr

namespace Sequencer

/-- The sequencer that has issued no ticket. -/
def start : Sequencer := ⟨0⟩

/-- The ticket that is issued next. -/
def nextTicket (s : Sequencer) : Ticket := ⟨s.issued + 1⟩

/-- The sequencer after it has issued a ticket. -/
def issue (s : Sequencer) : Sequencer := ⟨s.issued + 1⟩

/-- The ticket that was issued last. -/
def latest? (s : Sequencer) : Option Ticket :=
  if 0 < s.issued then some ⟨s.issued⟩ else none

/-- Whether a ticket is the one that was issued last. -/
def isCurrent (s : Sequencer) (t : Ticket) : Bool :=
  t.number == s.issued

/-- Passes a result on if it answers the latest request. -/
def accept {α : Type} (s : Sequencer) (t : Ticket) (result : α) : Option α :=
  if s.isCurrent t then some result else none

end Sequencer

/-- The latest edit, waiting for its time of rest to end. -/
structure PendingEdit where
  engine : Engine
  code : String
  deadline : Nat
deriving DecidableEq, Repr

/-- A render that should start now. -/
structure RenderRequest where
  ticket : Ticket
  engine : Engine
  code : String
deriving DecidableEq, Repr

/-- Holds back edits until they have rested. -/
structure Debouncer where
  /-- How long an edit has to rest. -/
  window : Nat
  pending : Option PendingEdit
  sequencer : Sequencer
deriving DecidableEq, Repr

namespace Debouncer

/-- A debouncer with the given time of rest. -/
def start (window : Nat) : Debouncer := ⟨window, none, .start⟩

/-- Records an edit, which takes the place of one that is waiting. -/
def record (d : Debouncer) (engine : Engine) (code : String) (now : Nat) : Debouncer :=
  { d with pending := some ⟨engine, code, now + d.window⟩ }

/-- When the waiting edit has rested, if one is waiting. -/
def deadline? (d : Debouncer) : Option Nat :=
  d.pending.map (·.deadline)

/-- Takes the waiting edit as a request if it has rested by now. -/
def poll (d : Debouncer) (now : Nat) : Debouncer × Option RenderRequest :=
  match d.pending with
  | none => (d, none)
  | some edit =>
    if edit.deadline ≤ now then
      ({ d with pending := none, sequencer := d.sequencer.issue },
        some ⟨d.sequencer.nextTicket, edit.engine, edit.code⟩)
    else (d, none)

/-- Passes a result on if it answers the latest request. -/
def accept {α : Type} (d : Debouncer) (t : Ticket) (result : α) : Option α :=
  d.sequencer.accept t result

end Debouncer

end BoxArrow
