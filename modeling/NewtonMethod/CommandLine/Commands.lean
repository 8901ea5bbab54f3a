/-
NewtonMethod/CommandLine/Commands.lean

The commands: what each of them computes, and what it prints.

    polynomial    a root of a polynomial that is not constant
    trig          a root of a·sin x + b·cos x + c
    linear        the solution of a system of linear equations
    check         the settings, if they are acceptable

A command prints lines and may fail.  What it has printed before it fails stays
printed.
-/
import NewtonMethod.Affine
import NewtonMethod.Decimal.Fixed
import NewtonMethod.DensePolynomial
import NewtonMethod.Inspect
import NewtonMethod.Log.Line
import NewtonMethod.MatrixText
import NewtonMethod.Settings
import NewtonMethod.Sinusoid
import NewtonMethod.Space.Scalar

namespace NewtonMethod

/-- A command with its arguments. -/
inductive Command where
  /-- Find a root of a polynomial. -/
  | polynomial (coefficients : List Float) (start : Float) (analytic : Bool)
  /-- Find a root of a sinusoid. -/
  | trig (f : Sinusoid Float) (start : Float) (analytic : Bool)
  /-- Solve a linear system. -/
  | linear (matrix rhs : String) (start : Option String)
  /-- Show the settings. -/
  | check

/-- Why a command fails. -/
inductive CommandError where
  /-- Its arguments make no problem. -/
  | argument (fault : ArgumentFault)
  /-- The solver has found no root. -/
  | solver (e : SolveError Float)
  /-- The solver was stopped by sizes that do not match. -/
  | shape (fault : ShapeFault)

/-- What a command has printed, and why it has failed, if it has. -/
structure Transcript where
  /-- The lines in order. -/
  lines : List Log.Line
  /-- The failure, if there is one. -/
  failure : Option CommandError

namespace Command

/-! ### Lines -/

/-- A record of the program itself. -/
def info (target message : String) : Log.Line := .record ⟨.info, target, message, []⟩

/-- The account of a root. -/
def found (root : Array Float) (iterations : Nat) (residualNorm : Float) : List Log.Line :=
  [.record ⟨.info, "newton::commands", "Converged",
      [("iterations", .count iterations), ("residual_norm", .real residualNorm)]⟩,
   .result ("root          = ["
      ++ ", ".intercalate (root.toList.map (Decimal.fixed 12)) ++ "]"),
   .result ("iterations    = " ++ toString iterations),
   .result ("residual norm = " ++ Layout.scientific.text residualNorm)]

/-- The lines before a search, the events of the search, and its result. -/
def searched {X J : Type} [PointSpace X Float J] (before : List Log.Line)
    (run : Run Float (Report X Float)) : Transcript :=
  let lines := before ++ run.journal.events.map fun e => .record (Log.Record.ofEvent e)
  match run.outcome with
  | .ok r =>
    ⟨lines ++ found (PointSpace.coordinates r.root) r.iterations r.residualNorm, none⟩
  | .error (.failure e) => ⟨lines, some (.solver e)⟩
  | .error (.fault f) => ⟨lines, some (.shape f)⟩

section Searched

variable {X J : Type} [PointSpace X Float J] {before : List Log.Line}
  {run : Run Float (Report X Float)}

theorem failure_searched_ne_argument (fault : ArgumentFault) :
    (searched before run).failure ≠ some (.argument fault) := by
  unfold searched
  rcases run.outcome with (e | f) | r <;> simp

theorem failure_searched_eq_solver_iff {e : SolveError Float} :
    (searched before run).failure = some (.solver e) ↔ run.outcome = .error (.failure e) := by
  unfold searched
  rcases run.outcome with (e | f) | r <;> simp

theorem failure_searched_eq_shape_iff {f : ShapeFault} :
    (searched before run).failure = some (.shape f) ↔ run.outcome = .error (.fault f) := by
  unfold searched
  rcases run.outcome with (e | f) | r <;> simp

end Searched

/-! ### Problems in one unknown -/

/-- The solver for a function with a known slope, which is used if that is asked for. -/
def scalarSolver (f slope : Float → Float) (analytic : Bool) (c : Config Float) :
    Solver Float Float Float :=
  if analytic then ⟨fun x => .ok (f x), .function fun x => .ok (slope x), c⟩
  else Solver.ofFunction (fun x => .ok (f x)) c

/-- Find a root of a polynomial. -/
def runPolynomial (coefficients : List Float) (start : Float) (analytic : Bool)
    (c : Config Float) : Transcript :=
  let p := DensePolynomial.ofCoefficients coefficients
  if p.isConstant then ⟨[], some (.argument .constantPolynomial)⟩
  else
    searched
      [info "newton::commands::polynomial"
        ("Solving polynomial with coefficients " ++ Layout.literal.list p.coefficients),
       info "newton::commands::polynomial" ("  Initial guess: " ++ Layout.plain.text start)]
      ((scalarSolver p.evaluate p.derivative.evaluate analytic c).report start)

/-- Find a root of a sinusoid. -/
def runTrig (f : Sinusoid Float) (start : Float) (analytic : Bool) (c : Config Float) :
    Transcript :=
  searched
    [info "newton::commands::trig"
      ("Solving " ++ Layout.plain.text f.a ++ "·sin x + " ++ Layout.plain.text f.b
        ++ "·cos x + " ++ Layout.plain.text f.c),
     info "newton::commands::trig" ("  Initial guess: " ++ Layout.plain.text start)]
    ((scalarSolver f.evaluate f.slope analytic c).report start)

/-! ### Linear systems -/

/-- A square system of linear equations and a point to start from. -/
structure LinearProblem where
  /-- The equations. -/
  system : Affine Float
  /-- Where the search starts. -/
  start : Array Float

/-- The problem that three texts describe.  Without a starting point the search starts at zero. -/
def LinearProblem.ofTexts (matrix rhs : String) (start : Option String) :
    Except ArgumentFault LinearProblem := do
  let a ← MatrixText.readMatrix matrix.toList
  let b ← MatrixText.readVector rhs.toList
  if a.rows ≠ a.cols ∨ a.rows ≠ b.length then
    .error (.rightHandSide a.rows a.cols b.length)
  else
    let x ← match start with
      | some text => MatrixText.readVector text.toList
      | none => .ok (List.replicate b.length 0)
    if x.length ≠ b.length then .error (.initialGuess x.length b.length)
    else .ok ⟨⟨a, b.toArray⟩, x.toArray⟩

/-- Solve a linear system. -/
def runLinear (matrix rhs : String) (start : Option String) (c : Config Float) : Transcript :=
  match LinearProblem.ofTexts matrix rhs start with
  | .error fault => ⟨[], some (.argument fault)⟩
  | .ok problem =>
    let a := problem.system.matrix
    searched
      [info "newton::commands::linear"
        ("Solving " ++ toString a.rows ++ "x" ++ toString a.cols ++ " linear system")]
      ((Solver.ofFunction problem.system.evaluate c).report problem.start)

/-! ### Settings -/

/-- The settings, one line each. -/
def settingLines (s : Settings) : List Log.Line :=
  let c := s.solver
  [.result ("tolerance             = " ++ Layout.scientific.text c.tolerance),
   .result ("max_iterations        = " ++ toString c.maxIterations),
   .result ("max_radius            = " ++ match c.maxRadius with
      | some radius => Layout.plain.text radius
      | none => "unbounded"),
   .result ("step_scale            = " ++ Layout.scientific.text c.stepScale),
   .result ("scheme                = " ++ Inspect.scheme c.scheme),
   .result ("singularity_tolerance = " ++ Layout.scientific.text c.singularityTolerance),
   .result ("log_level             = " ++ s.logLevel)]

/-- Show the settings. -/
def runCheck (s : Settings) : Transcript :=
  let before := [info "newton::commands::check" "Checking configuration..."]
  match s.solver.validate with
  | .error fault => ⟨before, some (.solver (.invalidConfig fault))⟩
  | .ok () =>
    ⟨before ++ settingLines s ++ [info "newton::commands::check" "Configuration OK"], none⟩

/-- Carry out a command. -/
def run (s : Settings) : Command → Transcript
  | polynomial coefficients start analytic => runPolynomial coefficients start analytic s.solver
  | trig f start analytic => runTrig f start analytic s.solver
  | linear matrix rhs start => runLinear matrix rhs start s.solver
  | check => runCheck s

end Command

end NewtonMethod
