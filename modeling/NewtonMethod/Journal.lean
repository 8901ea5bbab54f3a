/-
NewtonMethod/Journal.lean

What a computation leaves behind besides its result.

A journal lists, in the order they happened, the evaluations of the function
and of its derivative, the requests for a derivative, and the events that a
reader of a log would want to see.  From it the number of evaluations can be
counted, and the course of the computation be read off.
-/
import NewtonMethod.SolveError

namespace NewtonMethod

/-- Importance of an event. -/
inductive Level where
  | error
  | warn
  | info
  | debug
  | trace
  deriving DecidableEq, Repr

/-- Something that happened during a search. -/
inductive Event (α : Type) where
  /-- A point was tested. -/
  | residual (iteration : Nat) (norm : α)
  /-- A step was longer than the trust radius and has been shortened. -/
  | clamped (length radius : α)
  /-- A step was taken. -/
  | step (iteration : Nat) (norm : α)
  /-- The function gave a value that is not finite; outside a search there is no iteration. -/
  | nonFiniteFunction (iteration : Option Nat)
  /-- The derivative gave a value that is not finite. -/
  | nonFiniteDerivative (iteration : Nat)
  /-- The derivative could not be solved against. -/
  | singular (iteration : Nat)
  /-- The derivative has the wrong shape. -/
  | shapeMismatch (rows cols residual : Nat)
  /-- The step or the point it leads to is not finite. -/
  | overflowed (iteration : Nat)
  /-- The budget is used up. -/
  | exhausted (iterations : Nat) (residualNorm : α)
  /-- The configuration is not acceptable. -/
  | configRejected (fault : ConfigFault α)
  /-- The starting point is not finite. -/
  | startNotFinite
  deriving DecidableEq, Repr

namespace Event

variable {α : Type}

/-- The course of a search is of interest to those who look closely; what ends it without a root is
a warning. -/
def level : Event α → Level
  | residual .. => .debug
  | clamped .. => .debug
  | step .. => .debug
  | nonFiniteFunction _ => .warn
  | nonFiniteDerivative _ => .warn
  | singular _ => .warn
  | shapeMismatch .. => .warn
  | overflowed _ => .warn
  | exhausted .. => .warn
  | configRejected _ => .warn
  | startNotFinite => .warn

end Event

/-- One line of a journal. -/
inductive Entry (α : Type) where
  /-- The function was evaluated at a point to be tested or stepped from. -/
  | residual
  /-- The function was evaluated at a neighbouring point. -/
  | difference
  /-- A derivative was asked for. -/
  | request
  /-- The derivative was evaluated by a function of its own. -/
  | slope
  /-- An event. -/
  | event (e : Event α)
  deriving DecidableEq, Repr

namespace Entry

variable {α : Type}

/-- The line records an evaluation of the function. -/
def isFunctionCall : Entry α → Bool
  | residual => true
  | difference => true
  | _ => false

/-- The line records an evaluation of the derivative by a function of its own. -/
def isDerivativeCall : Entry α → Bool
  | slope => true
  | _ => false

/-- The event on a line, if it holds one. -/
def event? : Entry α → Option (Event α)
  | event e => some e
  | _ => none

end Entry

/-- The lines of a journal, oldest first. -/
abbrev Journal (α : Type) := List (Entry α)

namespace Journal

variable {α : Type}

/-- How often the function was evaluated. -/
def functionCalls (j : Journal α) : Nat := j.countP Entry.isFunctionCall

/-- How often the derivative was evaluated by a function of its own. -/
def derivativeCalls (j : Journal α) : Nat := j.countP Entry.isDerivativeCall

/-- The events in order. -/
def events (j : Journal α) : List (Event α) := j.filterMap Entry.event?

end Journal

end NewtonMethod
