/-!
# Procedures

A procedure works on a state and may fail on the way. It is run step by step, so that a procedure
that fails leaves the state as far as it had come, whatever that is. That many procedures leave the
state as it was when they fail is nothing that their type says.

## Main definitions

* `BoxArrow.Procedure`.
* `BoxArrow.Procedure.left`, `BoxArrow.Procedure.outcome` — what comes of a run.
* `BoxArrow.Procedure.onPart` — a procedure on a part of a state.
-/

namespace BoxArrow

/-- A procedure that works on a state. It ends with a value or with an error, and in both cases with
the state that it leaves. -/
abbrev Procedure (ε σ α : Type) :=
  EStateM ε σ α

namespace Procedure

variable {ε ε' σ τ α : Type}

/-- The state that a procedure leaves, whether it fails or not. -/
def left (p : Procedure ε σ α) (s : σ) : σ :=
  match p.run s with
  | .ok _ s' => s'
  | .error _ s' => s'

/-- The state that a procedure leads to, or the error that it fails with. -/
def outcome (p : Procedure ε σ α) (s : σ) : Except ε σ :=
  match p.run s with
  | .ok _ s' => .ok s'
  | .error e _ => .error e

/-- A procedure on a part of a state. What it leaves of the part is put back also when it fails. -/
def onPart (part : τ → σ) (put : τ → σ → τ) (fault : ε → ε') (p : Procedure ε σ α) :
    Procedure ε' τ α := fun t =>
  match p.run (part t) with
  | .ok a s => .ok a (put t s)
  | .error e s => .error (fault e) (put t s)

end Procedure

end BoxArrow
