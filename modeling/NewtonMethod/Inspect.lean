/-
NewtonMethod/Inspect.lean

Values written out field by field, for those who want to look at them.

A record is its name and its fields in braces, an optional value is `None` or
`Some` of the value, and numbers are laid out as literals.
-/
import NewtonMethod.Message
import NewtonMethod.Solver
import NewtonMethod.Text.Quoted

namespace NewtonMethod.Inspect

/-- A record: its name, then each field with its value. -/
def record (name : String) (fields : List (String × String)) : String :=
  name ++ " \x7b " ++ ", ".intercalate (fields.map fun (k, v) => k ++ ": " ++ v) ++ " \x7d"

/-- A number. -/
def real (x : Float) : String := Layout.literal.text x

/-- A list of numbers. -/
def reals (xs : Array Float) : String := Layout.literal.list xs.toList

/-- A number that may be absent. -/
def optional : Option Float → String
  | none => "None"
  | some x => "Some(" ++ real x ++ ")"

/-- A difference scheme. -/
def scheme : Scheme → String
  | .forward => "Forward"
  | .central => "Central"

/-- A stage of evaluation. -/
def stage : Stage → String
  | .initialGuess => "InitialGuess"
  | .function => "Function"
  | .derivative => "Derivative"

/-- A difference quotient. -/
def differences (d : Differences Float) : String :=
  record "FiniteDifference" [("step_scale", real d.stepScale), ("scheme", scheme d.scheme)]

/-- A configuration. -/
def config (c : Config Float) : String :=
  record "SolverConfig"
    [("tolerance", real c.tolerance),
     ("max_iterations", toString c.maxIterations),
     ("max_radius", optional c.maxRadius),
     ("step_scale", real c.stepScale),
     ("scheme", scheme c.scheme),
     ("singularity_tolerance", real c.singularityTolerance)]

/-- A solver that takes its derivatives by differences; its function is left out. -/
def solver (d : Differences Float) (c : Config Float) : String :=
  "NewtonSolver \x7b derivative: " ++ differences d ++ ", config: " ++ config c ++ ", .. \x7d"

/-- An error. -/
def error : SolveError Float → String
  | .maxIterationsExceeded n r x =>
    record "MaxIterationsExceeded"
      [("iterations", toString n), ("residual_norm", real r), ("last_iterate", reals x)]
  | .singularDerivative i x =>
    record "SingularDerivative" [("iteration", toString i), ("x", reals x)]
  | .nonFiniteValue s i x =>
    record "NonFiniteValue" [("stage", stage s), ("iteration", toString i), ("x", reals x)]
  | .diverged i x => record "Diverged" [("iteration", toString i), ("x", reals x)]
  | .dimensionMismatch r c k =>
    record "DimensionMismatch"
      [("rows", toString r), ("cols", toString c), ("residual_len", toString k)]
  | .invalidConfig fault => "InvalidConfig(" ++ Text.quoted fault.message ++ ")"

end NewtonMethod.Inspect
