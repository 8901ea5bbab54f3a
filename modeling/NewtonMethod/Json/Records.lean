/-
NewtonMethod/Json/Records.lean

Configurations and errors as JSON documents.

A configuration is an object with a member per setting, or an array of the
first settings in order; a setting that is absent has its standard value.  An
error is an object with one member, whose name says which error it is and whose
value holds its particulars, all of which are needed.
-/
import NewtonMethod.ConfigLayer
import NewtonMethod.Inspect
import NewtonMethod.Json.Document

namespace NewtonMethod

/-! ### Configurations -/

/-- A configuration as a document. -/
def Config.toJson (c : Config Float) : Json :=
  Json.ofMembers
    [("tolerance", Json.ofReal c.tolerance),
     ("max_iterations", Json.ofCount c.maxIterations),
     ("max_radius", c.maxRadius.elim Json.null Json.ofReal),
     ("step_scale", Json.ofReal c.stepScale),
     ("scheme", Json.ofText c.scheme.name),
     ("singularity_tolerance", Json.ofReal c.singularityTolerance)]

/-- The configuration in a document; what is absent has its standard value. -/
def Config.ofJson? (document : Json) : Option (Config Float) :=
  (ConfigLayer.ofDocument? document).map fun layer => layer.overlay Config.standard

/-! ### Errors -/

/-- The stage that a document names. -/
def Stage.ofJson? (document : Json) : Option Stage := do
  match ← document.toName? with
  | "InitialGuess" => some .initialGuess
  | "Function" => some .function
  | "Derivative" => some .derivative
  | _ => none

namespace SolveError

/-- An error as a document. -/
def toJson : SolveError Float → Json
  | maxIterationsExceeded n r x =>
    variant "MaxIterationsExceeded"
      [("iterations", .ofCount n), ("residual_norm", .ofReal r), ("last_iterate", .ofReals x)]
  | singularDerivative i x =>
    variant "SingularDerivative" [("iteration", .ofCount i), ("x", .ofReals x)]
  | nonFiniteValue s i x =>
    variant "NonFiniteValue"
      [("stage", .ofText (Inspect.stage s)), ("iteration", .ofCount i), ("x", .ofReals x)]
  | diverged i x => variant "Diverged" [("iteration", .ofCount i), ("x", .ofReals x)]
  | dimensionMismatch r c k =>
    variant "DimensionMismatch"
      [("rows", .ofCount r), ("cols", .ofCount c), ("residual_len", .ofCount k)]
  | invalidConfig fault => .ofMembers [("InvalidConfig", .ofText fault.message)]
where
  variant (name : String) (fields : List (String × Json)) : Json :=
    .ofMembers [(name, .ofMembers fields)]

/-- The values of the named fields, none of which may be absent. -/
def particulars? (names : List String) (document : Json) : Option (List Json) := do
  (← document.fields? names).mapM id

/-- The error in a document. -/
def ofJson? : Json → Option (SolveError Float)
  | .object [(some "MaxIterationsExceeded", d)] => do
    match ← particulars? ["iterations", "residual_norm", "last_iterate"] d with
    | [n, r, x] => return maxIterationsExceeded (← n.toCount?) (← r.toReal?) (← x.toReals?)
    | _ => none
  | .object [(some "SingularDerivative", d)] => do
    match ← particulars? ["iteration", "x"] d with
    | [i, x] => return singularDerivative (← i.toCount?) (← x.toReals?)
    | _ => none
  | .object [(some "NonFiniteValue", d)] => do
    match ← particulars? ["stage", "iteration", "x"] d with
    | [s, i, x] => return nonFiniteValue (← Stage.ofJson? s) (← i.toCount?) (← x.toReals?)
    | _ => none
  | .object [(some "Diverged", d)] => do
    match ← particulars? ["iteration", "x"] d with
    | [i, x] => return diverged (← i.toCount?) (← x.toReals?)
    | _ => none
  | .object [(some "DimensionMismatch", d)] => do
    match ← particulars? ["rows", "cols", "residual_len"] d with
    | [r, c, k] => return dimensionMismatch (← r.toCount?) (← c.toCount?) (← k.toCount?)
    | _ => none
  | .object [(some "InvalidConfig", d)] => do return invalidConfig (.other (← d.toText?))
  | _ => none

end SolveError

end NewtonMethod
