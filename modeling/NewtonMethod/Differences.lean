/-
NewtonMethod/Differences.lean

Derivatives approximated by difference quotients.

Each column of the derivative belongs to one coordinate, which is moved by `h`
while the others stay where they are:

    forward    (f(x + h·eᵢ) - f(x)) / h
    central    (f(x + h·eᵢ) - f(x - h·eᵢ)) / (2·h)

A forward quotient uses the value at `x` that is already known and costs one
evaluation, a central one costs two.  The value at `x` also fixes the number of
rows of the result.
-/
import NewtonMethod.Run
import NewtonMethod.Space

namespace NewtonMethod

/-- A difference quotient: the distance and the scheme. -/
structure Differences (α : Type) where
  /-- The distance `h`. -/
  stepScale : α
  /-- Forward or central. -/
  scheme : Scheme
  deriving DecidableEq, Repr

namespace Differences

/-- The quotient that a configuration asks for. -/
def ofConfig {α : Type} (c : Config α) : Differences α := ⟨c.stepScale, c.scheme⟩

/-- The quotient of the standard configuration. -/
def standard : Differences Float := ofConfig Config.standard

variable {X α J : Type} [Arithmetic α] [PointSpace X α J]

open PointSpace

/-- The function at a point with one coordinate moved. -/
def sample (f : X → Except ShapeFault X) (x : X) (i : Nat) (h : α) : Run α X := do
  let moved ← Run.ofExcept (perturbed x i h)
  Run.evaluate .difference f moved

/-- The forward quotient along coordinate `i`. -/
def forwardColumn (f : X → Except ShapeFault X) (x fx : X) (h : α) (i : Nat) : Run α X := do
  let ahead ← sample f x i h
  let rise ← Run.ofExcept (difference ahead fx)
  return divided rise h

/-- The central quotient along coordinate `i`. -/
def centralColumn (f : X → Except ShapeFault X) (x : X) (h : α) (i : Nat) : Run α X := do
  let ahead ← sample f x i h
  let behind ← sample f x i (-h)
  let rise ← Run.ofExcept (difference ahead behind)
  return divided rise (Arithmetic.ofNat 2 * h)

/-- The derivative with one quotient per coordinate of `x` as its columns. -/
def tabulate (x fx : X) (column : Nat → Run α X) : Run α J := do
  let columns ← (List.range (dimension x)).mapM column
  Run.ofExcept (assemble fx columns)

/-- The derivative at `x` by forward quotients, `fx` being the value there. -/
def forward (f : X → Except ShapeFault X) (x fx : X) (h : α) : Run α J :=
  tabulate x fx (forwardColumn f x fx h)

/-- The derivative at `x` by central quotients; `fx` only fixes the number of rows. -/
def central (f : X → Except ShapeFault X) (x fx : X) (h : α) : Run α J :=
  tabulate x fx (centralColumn f x h)

/-- The derivative at `x` by forward quotients, the value there being evaluated first. -/
def approximate (f : X → Except ShapeFault X) (x : X) (h : α) : Run α J := do
  let fx ← Run.evaluate .residual f x
  forward f x fx h

/-- The derivative at `x` by the quotient `d`. -/
def derivative (d : Differences α) (f : X → Except ShapeFault X) (x fx : X) : Run α J :=
  match d.scheme with
  | .forward => forward f x fx d.stepScale
  | .central => central f x fx d.stepScale

end Differences

end NewtonMethod
