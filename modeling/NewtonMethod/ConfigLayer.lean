/-
NewtonMethod/ConfigLayer.lean

Some of the settings of a solve.

Settings come from several places, each of which may say something about some
of them.  A layer holds what one place says, and `overlay` puts it on top of the
settings that hold otherwise.
-/
import NewtonMethod.Config
import NewtonMethod.Document

namespace NewtonMethod

/-- The name of a scheme. -/
def Scheme.name : Scheme → String
  | .forward => "forward"
  | .central => "central"

/-- The scheme with a name. -/
def Scheme.ofName? : String → Option Scheme
  | "forward" => some .forward
  | "central" => some .central
  | _ => none

/-- Settings that may be left open.  A trust radius can be left open, or set to none. -/
structure ConfigLayer where
  tolerance : Option Float := none
  maxIterations : Option Nat := none
  maxRadius : Option (Option Float) := none
  stepScale : Option Float := none
  scheme : Option Scheme := none
  singularityTolerance : Option Float := none
  deriving DecidableEq, Repr

namespace ConfigLayer

/-- The settings of a layer, and below it those of `base`. -/
def overlay (l : ConfigLayer) (base : Config Float) : Config Float where
  tolerance := l.tolerance.getD base.tolerance
  maxIterations := l.maxIterations.getD base.maxIterations
  maxRadius := l.maxRadius.getD base.maxRadius
  stepScale := l.stepScale.getD base.stepScale
  scheme := l.scheme.getD base.scheme
  singularityTolerance := l.singularityTolerance.getD base.singularityTolerance

/-- The names of the settings, in order. -/
def names : List String :=
  ["tolerance", "max_iterations", "max_radius", "step_scale", "scheme", "singularity_tolerance"]

variable {D : Type} [Document D]

open Document

/-- A trust radius, or none. -/
def radius? (d : D) : Option (Option Float) := if isNull d then some none else (real? d).map some

/-- The settings in a document, each of which may be absent. -/
def ofDocument? (d : D) : Option ConfigLayer := do
  match ← fields? names d with
  | [tolerance, iterations, radius, step, scheme, singularity] =>
    return {
      tolerance := ← tolerance.mapM real?
      maxIterations := ← iterations.mapM count?
      maxRadius := ← radius.mapM radius?
      stepScale := ← step.mapM real?
      scheme := ← scheme.mapM fun s => (name? s).bind Scheme.ofName?
      singularityTolerance := ← singularity.mapM real? }
  | _ => none

end ConfigLayer

end NewtonMethod
