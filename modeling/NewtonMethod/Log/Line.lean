/-
NewtonMethod/Log/Line.lean

Lines of the output: results, and records of what happened.
-/
import NewtonMethod.Log.Filter
import NewtonMethod.Message

namespace NewtonMethod.Log

/-- A record of the log. -/
structure Record where
  /-- How important it is. -/
  level : Level
  /-- The part of the program that it comes from. -/
  target : String
  /-- What happened. -/
  message : String
  /-- The particulars. -/
  fields : List (String × FieldValue) := []

/-- The name of a level. -/
def levelName : Level → String
  | .error => "ERROR"
  | .warn => "WARN"
  | .info => "INFO"
  | .debug => "DEBUG"
  | .trace => "TRACE"

/-- The text of the value of a field. -/
def fieldText : FieldValue → String
  | .count n => toString n
  | .real x => Layout.literal.text x
  | .text s => s

namespace Record

/-- The record as one line. -/
def line (r : Record) : String :=
  " ".intercalate
    ((levelName r.level ++ " " ++ r.target ++ ":") :: r.message
      :: r.fields.map fun (k, v) => k ++ "=" ++ fieldText v)

/-- The names of its fields; the message counts as one. -/
def fieldNames (r : Record) : List String := "message" :: r.fields.map (·.1)

/-- The record of an event of a search. -/
def ofEvent (e : Event Float) : Record :=
  ⟨e.level, "newton_core::math::solvers::newton_raphson", e.message, e.fields⟩

end Record

/-- A line of the output. -/
inductive Line where
  /-- A result. -/
  | result (text : String)
  /-- A record of the log. -/
  | record (r : Record)

namespace Line

/-- A filter lets the line pass; results always do. -/
def passes (f : Filter) : Line → Bool
  | result _ => true
  | record r => f.shows r.level r.target r.fieldNames

/-- The text of the line. -/
def text : Line → String
  | result s => s
  | record r => r.line

end Line

end NewtonMethod.Log
