/-
NewtonMethod/Log/Filter.lean

Which events are shown.

A filter is a list of directives, separated by commas.  Of several directives
that speak for an event the one that describes it most closely decides, the
last one if they describe it equally well.  An event that no directive speaks
for is not shown.
-/
import NewtonMethod.Log.Directive

namespace NewtonMethod.Log

/-- The directives of a filter. -/
abbrev Filter := List Directive

namespace Filter

/-- The pieces of a filter's text. -/
def pieces (text : String) : List (List Char) :=
  (text.toList.splitOn ',').filter fun piece => !piece.isEmpty

/-- A filter without directives shows errors. -/
def orErrors (ds : Filter) : Filter := if ds.isEmpty then [.ofLevel .error] else ds

/-- The filter that a text describes; pieces that make no sense are passed over. -/
def ofText (text : String) : Filter :=
  orErrors ((pieces text).filterMap fun piece => (Directive.read piece).toOption)

/-- A piece that makes no sense, and why. -/
structure Ignored where
  /-- The piece. -/
  piece : String
  /-- What is wrong with it. -/
  fault : DirectiveFault
  deriving DecidableEq, Repr

/-- What is said about a piece that makes no sense. -/
def Ignored.message (i : Ignored) : String :=
  "ignoring `" ++ i.piece ++ "`: " ++ i.fault.message

/-- The pieces that are passed over. -/
def ignored (text : String) : List Ignored :=
  (pieces text).filterMap fun piece =>
    match Directive.read piece with
    | .ok _ => none
    | .error fault => some ⟨String.ofList piece, fault⟩

/-- The directive that decides about events with a target and with fields of certain names. -/
def deciding (f : Filter) (target : String) (fields : List String) : Option Directive :=
  (f.filter (·.appliesTo target fields)).foldl
    (fun best d => match best with
      | none => some d
      | some b => if d.isAsPreciseAs b then some d else some b)
    none

/-- Events of a level, with a target and with fields of certain names, are shown. -/
def shows (f : Filter) (level : Level) (target : String) (fields : List String) : Bool :=
  match f.deciding target fields with
  | none => false
  | some d => verbosity level ≤ d.shown

end Filter

end NewtonMethod.Log
