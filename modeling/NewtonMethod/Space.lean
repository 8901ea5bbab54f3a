/-
NewtonMethod/Space.lean

What an iteration needs to know about its points.

A point has coordinates and a norm, can be moved along one coordinate, scaled
and subtracted, and a linear equation can be solved against the derivative of
a function between such points.  `PointSpace X α J` collects these operations
for points of type `X` with coordinates in `α` and derivatives of type `J`.
There are three kinds of points:

    Space/Scalar    a number             derivative: a number
    Space/Column    a list of any length derivative: a table of any shape
    Space/Fixed     a list of length n   derivative: a table n by n

Lists of any length can be combined wrongly, and the operations that can meet
this return `Except ShapeFault`.
-/
import NewtonMethod.Elimination

namespace NewtonMethod

/-- Points `X` with coordinates in `α`, and derivatives `J` of functions between them. -/
class PointSpace (X : Type) (α J : outParam Type) where
  /-- Number of coordinates. -/
  dimension : X → Nat
  /-- Euclidean norm. -/
  norm : X → α
  /-- Every coordinate is finite. -/
  isFinite : X → Bool
  /-- The point with a number added to one coordinate. -/
  perturbed : X → Nat → α → Except ShapeFault X
  /-- Each coordinate times a factor. -/
  scaled : X → α → X
  /-- Each coordinate divided by a number. -/
  divided : X → α → X
  /-- Difference, coordinate by coordinate. -/
  difference : X → X → Except ShapeFault X
  /-- The coordinates in order. -/
  coordinates : X → Array α
  /-- The derivative with the given columns; the value of the function fixes the number of rows. -/
  assemble : X → List X → Except ShapeFault J
  /-- Every entry of the derivative is finite. -/
  isFiniteDerivative : J → Bool
  /-- The solution of a linear equation, or why there is none.  The last argument is the magnitude
  at or below which a pivot counts as zero. -/
  solveLinear : J → X → α → Except LinearFailure X

end NewtonMethod
