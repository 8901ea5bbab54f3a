/-
NewtonMethod/Solver.lean

Newton's method: from a point `x` with `f(x) ≠ 0`, solve `J(x)·δ = f(x)` and go
to `x - δ`.

`Solver.step` takes one such step, `Solver.report` repeats it until the norm of
the residual `f(x)` is within the tolerance.  The budget of a configuration
counts residuals: a point is tested, and a step is only taken if its result can
be tested as well.  So the point that an exhausted search reports is always the
last one that was tested.

A step may be bounded by a trust radius.  A longer step keeps its direction and
is shortened to the length of the radius.

Each search begins by checking the configuration and the starting point.  After
that the first thing to go wrong ends it: a value or a derivative that is not
finite, a derivative that cannot be solved against, or a step out of the finite
range.  Every such end is announced by one event in the journal.
-/
import NewtonMethod.Differences
import NewtonMethod.Dual

namespace NewtonMethod

/-- Where derivatives come from. -/
inductive Derivative (X α J : Type) where
  /-- From difference quotients of the function. -/
  | differences (d : Differences α)
  /-- From a function of its own. -/
  | function (slope : X → Except ShapeFault J)

/-- The derivative of `f` at `x`, where `f` has the value `fx`. -/
def Derivative.at {X α J : Type} [Arithmetic α] [PointSpace X α J] (d : Derivative X α J)
    (f : X → Except ShapeFault X) (x fx : X) : Run α J := do
  Run.note .request
  match d with
  | .differences q => q.derivative f x fx
  | .function slope => Run.evaluate .slope slope x

/-- A root and how it was found. -/
structure Report (X α : Type) where
  /-- The point whose residual is within the tolerance. -/
  root : X
  /-- Number of steps that led there. -/
  iterations : Nat
  /-- Norm of the residual at the root. -/
  residualNorm : α
  deriving DecidableEq, Repr

/-- A function whose root is sought, its derivative and the settings of the search. -/
structure Solver (X α J : Type) where
  /-- The function. -/
  function : X → Except ShapeFault X
  /-- Where its derivative comes from. -/
  derivative : Derivative X α J
  /-- The settings. -/
  config : Config α

namespace Solver

variable {X α J : Type} [Arithmetic α] [PointSpace X α J]

open PointSpace

/-- A solver whose derivative is taken by the differences that the configuration asks for. -/
def ofFunction (f : X → Except ShapeFault X) (c : Config α) : Solver X α J :=
  ⟨f, .differences (Differences.ofConfig c), c⟩

/-- A solver for a function of one number that is given over dual numbers.  Its value and its
derivative both come from there. -/
def ofDual (g : Dual α → Except ShapeFault (Dual α)) (c : Config α) : Solver α α α :=
  ⟨Dual.valueOf g, .function (Dual.slopeOf g), c⟩

/-! ### Checks -/

/-- The configuration is acceptable and the starting point finite, or the search ends here. -/
def checkStart (s : Solver X α J) (x : X) : Run α Unit :=
  match s.config.validate with
  | .error fault => Run.fail (.configRejected fault) (.invalidConfig fault)
  | .ok () =>
    if isFinite x then pure ()
    else Run.fail .startNotFinite (.nonFiniteValue .initialGuess 0 (coordinates x))

/-- A residual is finite, or the search ends here. -/
def checkResidual (x fx : X) (announced : Option Nat) (iteration : Nat) : Run α Unit :=
  if isFinite fx then pure ()
  else
    Run.fail (.nonFiniteFunction announced)
      (.nonFiniteValue .function iteration (coordinates x))

/-! ### One step -/

/-- The derivative at `x`, which has to be finite. -/
def derivativeAt (s : Solver X α J) (iteration : Nat) (x fx : X) : Run α J := do
  let jacobian ← s.derivative.at s.function x fx
  if isFiniteDerivative X jacobian then pure jacobian
  else
    Run.fail (.nonFiniteDerivative iteration)
      (.nonFiniteValue .derivative iteration (coordinates x))

/-- The solution of the linear equation of a step. -/
def solution (s : Solver X α J) (iteration : Nat) (x fx : X) (jacobian : J) : Run α X :=
  match solveLinear jacobian fx s.config.singularityTolerance with
  | .ok delta => pure delta
  | .error .singular =>
    Run.fail (.singular iteration) (.singularDerivative iteration (coordinates x))
  | .error (.shape rows cols residual) =>
    Run.fail (.shapeMismatch rows cols residual) (.dimensionMismatch rows cols residual)

/-- A step no longer than the trust radius. -/
def clamp (s : Solver X α J) (delta : X) : Run α X :=
  match s.config.maxRadius with
  | none => pure delta
  | some radius =>
    let length := norm delta
    if Arithmetic.lt radius length then do
      Run.log (.clamped length radius)
      return scaled delta (radius / length)
    else pure delta

/-- The point after the step `delta` from `x`; both have to be finite. -/
def move (iteration : Nat) (x delta : X) : Run α X := do
  let next ← Run.ofExcept (difference x delta)
  if isFinite delta && isFinite next then do
    Run.log (.step iteration (norm delta))
    return next
  else Run.fail (.overflowed iteration) (.diverged iteration (coordinates x))

/-- The step from `x`, where the function has the finite value `fx`. -/
def advance (s : Solver X α J) (iteration : Nat) (x fx : X) : Run α X := do
  let jacobian ← s.derivativeAt iteration x fx
  let delta ← s.solution iteration x fx jacobian
  let delta ← s.clamp delta
  move iteration x delta

/-- One step from `x`.  The value of the function there is evaluated unless it is given. -/
def step (s : Solver X α J) (x : X) (fx : Option X) : Run α X := do
  s.checkStart x
  let fx ← match fx with
    | some fx => pure fx
    | none => Run.evaluate .residual s.function x
  checkResidual x fx none 0
  s.advance 0 x fx

/-! ### A search -/

/-- Evaluates the function at `x`, and the norm of its value. -/
def test (s : Solver X α J) (iteration : Nat) (x : X) : Run α (X × α) := do
  let fx ← Run.evaluate .residual s.function x
  checkResidual x fx (some iteration) iteration
  let residual := norm fx
  Run.log (.residual iteration residual)
  return (fx, residual)

/-- The end of a search whose budget is used up. -/
def exhausted (s : Solver X α J) (residual : α) (x : X) : Run α (Report X α) :=
  Run.fail (.exhausted s.config.maxIterations residual)
    (.maxIterationsExceeded s.config.maxIterations residual (coordinates x))

/-- The search from the point `x`, the `iteration`-th one, with at most `remaining` further points
after it. -/
def search (s : Solver X α J) : (remaining iteration : Nat) → X → Run α (Report X α)
  | 0, iteration, x => do
    let (_, residual) ← s.test iteration x
    if Arithmetic.le residual s.config.tolerance then return ⟨x, iteration, residual⟩
    else s.exhausted residual x
  | remaining + 1, iteration, x => do
    let (fx, residual) ← s.test iteration x
    if Arithmetic.le residual s.config.tolerance then return ⟨x, iteration, residual⟩
    else
      let next ← s.advance iteration x fx
      s.search remaining (iteration + 1) next

/-- The search for a root from `x`, with an account of how it was found. -/
def report (s : Solver X α J) (x : X) : Run α (Report X α) := do
  s.checkStart x
  match s.config.maxIterations with
  | 0 => s.exhausted Arithmetic.nan x
  | remaining + 1 => s.search remaining 0 x

/-- The search for a root from `x`. -/
def solve (s : Solver X α J) (x : X) : Run α X := do
  let found ← s.report x
  return found.root

end Solver

end NewtonMethod
