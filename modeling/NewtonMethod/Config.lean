/-
NewtonMethod/Config.lean

The settings of a solve, and which of them are acceptable.

A configuration can hold anything, since it may come from a file.  It is
checked field by field at the start of every solve, and the first unacceptable
field is named together with its value:

    tolerance               positive and finite
    stepScale               positive and finite
    maxRadius               positive and finite, if there is one
    singularityTolerance    zero or more, and finite
-/
import NewtonMethod.Arithmetic

namespace NewtonMethod

/-- How a derivative is approximated by differences. -/
inductive Scheme where
  /-- From the value at the point to the value ahead of it. -/
  | forward
  /-- From the value behind the point to the value ahead of it. -/
  | central
  deriving DecidableEq, Repr

/-- The settings of a solve. -/
structure Config (α : Type) where
  /-- A residual norm up to this value ends the search with success. -/
  tolerance : α
  /-- How many residuals may be looked at. -/
  maxIterations : Nat
  /-- The trust radius: longer steps are shortened to this length. -/
  maxRadius : Option α
  /-- How far apart the points of a difference quotient are. -/
  stepScale : α
  /-- Which difference quotient is taken. -/
  scheme : Scheme
  /-- A pivot up to this magnitude makes the derivative singular. -/
  singularityTolerance : α
  deriving DecidableEq, Repr

/-- An unacceptable setting. -/
inductive ConfigFault (α : Type) where
  /-- The tolerance is not positive and finite. -/
  | tolerance (value : α)
  /-- The difference step is not positive and finite. -/
  | stepScale (value : α)
  /-- The trust radius is not positive and finite. -/
  | maxRadius (value : α)
  /-- The singularity tolerance is negative or not finite. -/
  | singularityTolerance (value : α)
  /-- Some other reason, in words. -/
  | other (reason : String)
  deriving DecidableEq, Repr

namespace Config

variable {α : Type}

/-! ### Changing one setting -/

/-- The same settings with a trust radius. -/
def withMaxRadius (c : Config α) (radius : α) : Config α := { c with maxRadius := some radius }

/-- The same settings with another difference step. -/
def withStepScale (c : Config α) (step : α) : Config α := { c with stepScale := step }

/-- The same settings with another difference scheme. -/
def withScheme (c : Config α) (scheme : Scheme) : Config α := { c with scheme := scheme }

/-- The same settings with another singularity tolerance. -/
def withSingularityTolerance (c : Config α) (tolerance : α) : Config α :=
  { c with singularityTolerance := tolerance }

/-! ### Acceptable settings -/

variable [Arithmetic α]

/-- Greater than zero, and finite. -/
def isPositive (a : α) : Bool := Arithmetic.lt 0 a && Arithmetic.isFinite a

/-- Zero or more, and finite. -/
def isNonnegative (a : α) : Bool := Arithmetic.le 0 a && Arithmetic.isFinite a

/-- The first unacceptable setting, if there is one. -/
def validate (c : Config α) : Except (ConfigFault α) Unit :=
  if !isPositive c.tolerance then .error (.tolerance c.tolerance)
  else if !isPositive c.stepScale then .error (.stepScale c.stepScale)
  else if let some radius := c.maxRadius.filter (!isPositive ·) then .error (.maxRadius radius)
  else if !isNonnegative c.singularityTolerance then
    .error (.singularityTolerance c.singularityTolerance)
  else .ok ()

/-- Equality of the settings, numbers being compared by the arithmetic. -/
def beq (a b : Config α) : Bool :=
  Arithmetic.eq a.tolerance b.tolerance && a.maxIterations == b.maxIterations
    && Arithmetic.eqEntries a.maxRadius.toList b.maxRadius.toList
    && Arithmetic.eq a.stepScale b.stepScale && a.scheme == b.scheme
    && Arithmetic.eq a.singularityTolerance b.singularityTolerance

/-! ### The usual settings -/

/-- The settings that hold where nothing else is said. -/
def standard : Config Float where
  tolerance := 1e-6
  maxIterations := 100
  maxRadius := none
  stepScale := 1e-6
  scheme := .forward
  singularityTolerance := 1e-30

/-- The standard settings with a tolerance, which has to be positive and finite, and a budget. -/
def make? (tolerance : Float) (maxIterations : Nat) : Option (Config Float) :=
  if isPositive tolerance then
    some { standard with tolerance := tolerance, maxIterations := maxIterations }
  else none

end Config

end NewtonMethod
