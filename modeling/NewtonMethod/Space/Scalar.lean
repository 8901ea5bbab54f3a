/-
NewtonMethod/Space/Scalar.lean

Numbers as points.  The norm is the absolute value, the derivative a slope, and
solving a linear equation is one division.
-/
import NewtonMethod.Space

namespace NewtonMethod.Scalar

variable {α : Type} [Arithmetic α]

/-- The quotient of a value by a slope, unless the slope is at or below the tolerance. -/
def solve (slope value tolerance : α) : Except LinearFailure α :=
  if Arithmetic.le (Arithmetic.abs slope) tolerance then .error .singular
  else .ok (value / slope)

instance : PointSpace α α α where
  dimension _ := 1
  norm := Arithmetic.abs
  isFinite := Arithmetic.isFinite
  perturbed x _ h := .ok (x + h)
  scaled x factor := x * factor
  divided x divisor := x / divisor
  difference x y := .ok (x - y)
  coordinates x := #[x]
  assemble _ columns := .ok (columns.headD 0)
  isFiniteDerivative := Arithmetic.isFinite
  solveLinear := solve

end NewtonMethod.Scalar
