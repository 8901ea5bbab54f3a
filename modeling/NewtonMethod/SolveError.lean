/-
NewtonMethod/SolveError.lean

The ways in which a search for a root ends without one.

Coordinates are kept as a plain list, whatever kind of point the search was
over, so that errors of different searches can be compared and shown alike.
-/
import NewtonMethod.Config

namespace NewtonMethod

/-- Where a value came from that is not finite. -/
inductive Stage where
  /-- The point that the search was started from. -/
  | initialGuess
  /-- The function whose root is sought. -/
  | function
  /-- Its derivative. -/
  | derivative
  deriving DecidableEq, Repr

/-- An end of the search without a root. -/
inductive SolveError (α : Type) where
  /-- The budget was used up; the last point that was tested and its residual norm. -/
  | maxIterationsExceeded (iterations : Nat) (residualNorm : α) (lastIterate : Array α)
  /-- The derivative could not be solved against. -/
  | singularDerivative (iteration : Nat) (x : Array α)
  /-- Something was evaluated to a value that is not finite. -/
  | nonFiniteValue (stage : Stage) (iteration : Nat) (x : Array α)
  /-- The step or the point it leads to is not finite. -/
  | diverged (iteration : Nat) (x : Array α)
  /-- The derivative is not square or does not match the residual. -/
  | dimensionMismatch (rows cols residual : Nat)
  /-- The configuration is not acceptable. -/
  | invalidConfig (fault : ConfigFault α)
  deriving DecidableEq, Repr

namespace SolveError

variable {α : Type}

/-- The point that the error is about, if it is about one. -/
def lastIterate : SolveError α → Option (Array α)
  | maxIterationsExceeded _ _ x => some x
  | singularDerivative _ x => some x
  | nonFiniteValue _ _ x => some x
  | diverged _ x => some x
  | dimensionMismatch .. => none
  | invalidConfig _ => none

/-- Whether a larger budget might have helped. -/
def isConvergenceFailure : SolveError α → Bool
  | maxIterationsExceeded .. => true
  | _ => false

/-- The numbers that an error reports, in the order of its fields.  An unacceptable configuration
is reported in words. -/
def numbers : SolveError α → List α
  | maxIterationsExceeded _ r x => r :: x.toList
  | singularDerivative _ x => x.toList
  | nonFiniteValue _ _ x => x.toList
  | diverged _ x => x.toList
  | dimensionMismatch .. => []
  | invalidConfig _ => []

/-- Every number in the error equals itself; one that is undefined does not, and then the error
does not equal itself either. -/
def equalsItself [Arithmetic α] (e : SolveError α) : Bool :=
  Arithmetic.eqEntries e.numbers e.numbers

end SolveError

end NewtonMethod
