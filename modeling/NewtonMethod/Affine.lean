/-
NewtonMethod/Affine.lean

The functions `A·x - b`, whose root solves a system of linear equations.
-/
import NewtonMethod.Space.Column

namespace NewtonMethod

/-- The function `A·x - b`. -/
structure Affine (α : Type) where
  /-- The table `A`. -/
  matrix : Jacobian α
  /-- The right-hand side `b`. -/
  rhs : Array α

namespace Affine

variable {α : Type} [Arithmetic α]

/-- The product of a table with a column as long as it has columns. -/
def product (a : Jacobian α) (x : Array α) : Except ShapeFault (Array α) :=
  if h : x.size = a.cols then .ok (a.table.times ⟨x, h⟩).toArray
  else .error (.lengths a.cols x.size)

/-- The value at `x`. -/
def evaluate (f : Affine α) (x : Array α) : Except ShapeFault (Array α) := do
  Column.difference (← product f.matrix x) f.rhs

end Affine

end NewtonMethod
