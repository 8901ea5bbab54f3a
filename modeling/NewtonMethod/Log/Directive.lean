/-
NewtonMethod/Log/Directive.lean

One directive of a filter for the log.

In full a directive looks like

    target[span{field}]=level

and most of it may be missing: it may consist of a level or of a target alone,
and the brackets may hold only a span or only a field.  It speaks for the events
whose target begins with the one given, and which have a field with the name
given, and shows those that are at least as important as its level; without a
level it shows all of them.

The text is read character by character.  `advance` says what a character means
in the part of the directive that it stands in, and `finish` what is known when
the text ends.  White space around a directive has no meaning of its own, but
its parts are cut out of the text with that white space, at positions that are
counted without it.
-/
import NewtonMethod.Decimal.Reader
import NewtonMethod.Journal
import NewtonMethod.Pattern.Check
import NewtonMethod.Text.Alphanumeric
import NewtonMethod.Text.Blank

namespace NewtonMethod.Log

/-! ### Levels -/

/-- How much is shown: larger numbers show more, zero shows nothing. -/
abbrev Verbosity := Nat

/-- The verbosity from which on a level is shown. -/
def verbosity : Level → Verbosity
  | .error => 1
  | .warn => 2
  | .info => 3
  | .debug => 4
  | .trace => 5

/-- Everything is shown. -/
def everything : Verbosity := 5

/-- The verbosity with a name, in any case, or a number. -/
def verbosity? (name : List Char) : Option Verbosity :=
  match String.ofList (name.map Char.toLower) with
  | "off" => some 0
  | "error" => some 1
  | "warn" => some 2
  | "info" => some 3
  | "debug" => some 4
  | "trace" => some 5
  | _ => (readCount? name).filter (· ≤ everything)

/-! ### Directives -/

/-- What is shown of which events. -/
structure Directive where
  /-- The beginning of the targets that are spoken for, if not all of them are. -/
  target : Option String
  /-- The name of a field that the events need to have. -/
  field : Option String
  /-- Only what happens inside a span is spoken for: the brackets name it, or ask for the value of a
  field. -/
  insideSpan : Bool
  /-- How much is shown. -/
  shown : Verbosity
  deriving DecidableEq, Repr

/-- Why a text is no directive. -/
inductive DirectiveFault where
  /-- Its parts do not follow each other as they should. -/
  | malformed
  /-- The level has none of the names of levels. -/
  | unknownLevel
  /-- The value of a field cannot be used as a pattern. -/
  | value (fault : PatternFault)
  deriving DecidableEq, Repr

/-- What is wrong with a text that is no directive. -/
def DirectiveFault.message : DirectiveFault → String
  | malformed => "invalid filter directive"
  | unknownLevel => "error parsing level filter: expected one of \"off\", \"error\", \"warn\", "
      ++ "\"info\", \"debug\", \"trace\", or a number 0-5"
  | value fault => "invalid field filter: " ++ fault.message

namespace Directive

/-- The directive that shows everything, as far as nothing else is said. -/
def unrestricted : Directive := ⟨none, none, false, everything⟩

/-- The directive that shows the events that are at least as important as a level. -/
def ofLevel (level : Level) : Directive := { unrestricted with shown := verbosity level }

/-- The directive speaks for events with a target and with fields of certain names. -/
def appliesTo (d : Directive) (target : String) (fields : List String) : Bool :=
  !d.insideSpan
    && (match d.target with
      | none => true
      | some start => start.toList.isPrefixOf target.toList)
    && (match d.field with
      | none => true
      | some name => fields.contains name)

/-- The number of characters of targets that are described; all targets are described by less than
those with a beginning, even an empty one. -/
def reach (d : Directive) : Nat :=
  match d.target with
  | none => 0
  | some start => start.length + 1

/-- The directive describes the events it speaks for at least as closely as another one.  The
target counts first, then a field, of two fields the one with the later name. -/
def isAsPreciseAs (d e : Directive) : Bool :=
  if d.reach = e.reach then
    match d.field, e.field with
    | _, none => true
    | none, some _ => false
    | some name, some other => !decide (name < other)
  else e.reach < d.reach

/-! ### Reading -/

/-- Every character with the position at which it begins, in bytes of UTF-8 from a first position
on. -/
def positions : Nat → List Char → List (Nat × Char)
  | _, [] => []
  | i, c :: cs => (i, c) :: positions (i + c.utf8Size) cs

/-- The characters that begin between two positions, the second one excluded. -/
def slice (text : List Char) (first last : Nat) : List Char :=
  ((positions 0 text).filter fun (i, _) => first ≤ i && i < last).map (·.2)

/-- The characters that begin at a position or after it. -/
def sliceFrom (text : List Char) (first : Nat) : List Char :=
  ((positions 0 text).filter fun (i, _) => first ≤ i).map (·.2)

/-- The part of a directive that a character stands in, with the position at which the part
begins. -/
inductive Part where
  /-- Nothing has been read. -/
  | start
  /-- A target, or a level if nothing follows. -/
  | name (first : Nat)
  /-- The name of a span. -/
  | span (first : Nat)
  /-- A field. -/
  | field (first : Nat)
  /-- The bracket after a field. -/
  | bracket
  /-- The equals sign after the brackets. -/
  | equals
  /-- A level. -/
  | level (first : Nat)
  deriving DecidableEq, Repr

/-- A character that a target may begin with. -/
def isTargetStart (c : Char) : Bool :=
  c = '-' || c = ':' || c = '_' || Text.isAlphanumeric c

/-- What is wrong with the value of a field, if anything is.  A value is a number or a pattern. -/
def valueFault? (value : List Char) : Option PatternFault :=
  if (readFloat? value).isSome then none else Pattern.fault? value

/-- The directive with a field: a name, or a name and a value with an equals sign between them.
What follows another equals sign does not count. -/
def withField (d : Directive) (field : List Char) : Except DirectiveFault Directive :=
  match field.splitOn '=' with
  | [name] => .ok { d with field := some (String.ofList name) }
  | _ :: value :: _ =>
    match valueFault? value with
    | none => .ok { d with insideSpan := true }
    | some fault => .error (.value fault)
  | [] => .error .malformed

/-- What a character at a position means for the directive so far. -/
def advance (text : List Char) (d : Directive) (i : Nat) (c : Char) :
    Part → Except DirectiveFault (Directive × Part)
  | .start =>
    if c = '[' then .ok (d, .span (i + 1))
    else if isTargetStart c then .ok (d, .name i)
    else .error .malformed
  | .name first =>
    let named := { d with target := some (String.ofList (slice text first i)) }
    if c = '=' then .ok (named, .level (i + 1))
    else if c = '[' then .ok (named, .span (i + 1))
    else .ok (d, .name first)
  | .span first =>
    if c = ']' then .ok ({ d with insideSpan := true }, .equals)
    else if c = '\x7b' then .ok ({ d with insideSpan := first < i }, .field (i + 1))
    else .ok (d, .span first)
  | .field first =>
    if c = '\x7d' then
      if first < i then (d.withField (slice text first i)).map (·, .bracket)
      else .error .malformed
    else .ok (d, .field first)
  | .bracket => if c = ']' then .ok (d, .equals) else .error .malformed
  | .equals => if c = '=' then .ok (d, .level (i + 1)) else .error .malformed
  | .level first => .ok (d, .level first)

/-- What the end of the text means for the directive so far. -/
def finish (text : List Char) (d : Directive) : Part → Except DirectiveFault Directive
  | .name first =>
    let name := sliceFrom text first
    match verbosity? name with
    | some shown => .ok { d with shown := shown }
    | none => .ok { d with target := some (String.ofList name) }
  | .level first =>
    let name := sliceFrom text first
    if name.isEmpty then .ok d
    else
      match verbosity? name with
      | some shown => .ok { d with shown := shown }
      | none => .error .unknownLevel
  | .equals => .ok d
  | _ => .error .malformed

/-- The rest of a directive, from a part of it on. -/
def readFrom (text : List Char) (d : Directive) (part : Part) :
    List (Nat × Char) → Except DirectiveFault Directive
  | [] => finish text d part
  | (i, c) :: rest =>
    match advance text d i c part with
    | .ok (d, part) => readFrom text d part rest
    | .error fault => .error fault

/-- The directive that a text describes. -/
def read (text : List Char) : Except DirectiveFault Directive :=
  readFrom text unrestricted .start (positions 0 (Text.trim text))

end Directive

end NewtonMethod.Log
