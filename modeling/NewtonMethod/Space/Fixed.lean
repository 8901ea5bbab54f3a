/-
NewtonMethod/Space/Fixed.lean

Columns of a fixed length as points, and square tables of that size as
derivatives.  Lengths agree by type, so a difference cannot fail; an index
can still lie beyond the last coordinate, and a derivative can be assembled
from too few columns.
-/
import NewtonMethod.Norm
import NewtonMethod.Space

namespace NewtonMethod.Fixed

variable {α : Type} {n : Nat}

/-- Adds a number to one entry. -/
def perturbed [Add α] (x : Vector α n) (i : Nat) (h : α) : Except ShapeFault (Vector α n) :=
  if _ : i < n then .ok (x.set i (x[i] + h)) else .error (.outOfRange i n)

/-- The table whose columns are the first `n` of those given. -/
def assemble (columns : List (Vector α n)) : Except ShapeFault (Table α n n) :=
  if h : n ≤ columns.length then
    .ok (Table.ofFn fun i j =>
      have bound : j.val < columns.length := Nat.lt_of_lt_of_le j.isLt h
      columns[j][i])
  else .error (.tooFew n)

variable [Arithmetic α]

/-- The Euclidean norm of a column whose length is fixed. -/
def norm (x : Vector α n) : α := Norm.scaled Norm.shortSum x.toList

instance : PointSpace (Vector α n) α (Table α n n) where
  dimension _ := n
  norm := norm
  isFinite x := x.all Arithmetic.isFinite
  perturbed := perturbed
  scaled x factor := x.map (· * factor)
  divided x divisor := x.map (· / divisor)
  difference x y := .ok (x.zipWith (· - ·) y)
  coordinates := Vector.toArray
  assemble _ := assemble
  isFiniteDerivative j := j.all Arithmetic.isFinite
  solveLinear := Table.solve

end NewtonMethod.Fixed
