/-
NewtonMethod/Message.lean

The wording of errors and events.

Numbers inside a sentence are laid out plainly; the coordinates of a point are
laid out as literals, in brackets.
-/
import NewtonMethod.Decimal.Layout
import NewtonMethod.Journal

namespace NewtonMethod

/-! ### Errors -/

/-- What is wrong with a configuration. -/
def ConfigFault.message : ConfigFault Float → String
  | .tolerance v => "tolerance must be positive and finite, got " ++ Layout.plain.text v
  | .stepScale v => "step_scale must be positive and finite, got " ++ Layout.plain.text v
  | .maxRadius v => "max_radius must be positive and finite, got " ++ Layout.plain.text v
  | .singularityTolerance v =>
    "singularity_tolerance must be non-negative and finite, got " ++ Layout.plain.text v
  | .other reason => reason

/-- The value that an evaluation stage speaks of. -/
def Stage.phrase : Stage → String
  | .initialGuess => "initial guess"
  | .function => "function"
  | .derivative => "derivative"

/-- The place of a failure: the iteration and the point. -/
def SolveError.place (iteration : Nat) (x : Array Float) : String :=
  "iteration " ++ toString iteration ++ ", x = " ++ Layout.literal.list x.toList

/-- Why there is no root. -/
def SolveError.message : SolveError Float → String
  | .maxIterationsExceeded iterations residualNorm _ =>
    "Failed to converge after " ++ toString iterations ++ " iterations (residual norm "
      ++ Layout.plain.text residualNorm ++ ")"
  | .singularDerivative iteration x => "Singular derivative at " ++ place iteration x
  | .nonFiniteValue stage iteration x =>
    "Non-finite " ++ stage.phrase ++ " value at " ++ place iteration x
  | .diverged iteration x => "Newton iteration diverged at " ++ place iteration x
  | .dimensionMismatch rows cols residual =>
    "Jacobian is " ++ toString rows ++ "x" ++ toString cols ++ " but the residual has "
      ++ toString residual ++ " entries"
  | .invalidConfig fault => "Invalid solver configuration: " ++ fault.message

/-! ### Events -/

/-- The value of a field of an event. -/
inductive FieldValue where
  | count (n : Nat)
  | real (x : Float)
  | text (s : String)

namespace Event

/-- What happened. -/
def message {α : Type} : Event α → String
  | residual .. => "newton residual"
  | clamped .. => "step clamped to trust radius"
  | step .. => "newton step"
  | nonFiniteFunction _ => "target function returned a non-finite value"
  | nonFiniteDerivative _ => "derivative returned a non-finite value"
  | singular _ => "singular derivative"
  | shapeMismatch .. => "jacobian does not match residual"
  | overflowed _ => "newton update overflowed"
  | exhausted .. => "newton iteration budget exhausted"
  | configRejected _ => "solver configuration rejected"
  | startNotFinite => "initial guess is not finite"

/-- The particulars, in order. -/
def fields : Event Float → List (String × FieldValue)
  | residual i r => [("iteration", .count i), ("residual_norm", .real r)]
  | clamped l r => [("length", .real l), ("radius", .real r)]
  | step i r => [("iteration", .count i), ("step_norm", .real r)]
  | nonFiniteFunction i => i.toList.map fun i => ("iteration", .count i)
  | nonFiniteDerivative i => [("iteration", .count i)]
  | singular i => [("iteration", .count i)]
  | shapeMismatch r c k => [("rows", .count r), ("cols", .count c), ("residual_len", .count k)]
  | overflowed i => [("iteration", .count i)]
  | exhausted n r => [("iterations", .count n), ("residual_norm", .real r)]
  | configRejected fault => [("err", .text (SolveError.message (.invalidConfig fault)))]
  | startNotFinite => []

end Event

end NewtonMethod
