/-
NewtonMethod/Settings.lean

The settings of the program, and the layers they are made of.

Four places have a say, each taking precedence over the one before: the
standard settings, a file, the environment, and the command line.  The
environment is read variable by variable in a fixed order, and the first value
that cannot be read ends the loading, whatever the command line says.
-/
import NewtonMethod.ConfigLayer
import NewtonMethod.Text.Blank
import NewtonMethod.Toml.Reader

namespace NewtonMethod

/-- The settings of the program. -/
structure Settings where
  /-- The settings of a solve. -/
  solver : Config Float
  /-- Which events are shown. -/
  logLevel : String
  deriving DecidableEq, Repr

namespace Settings

/-- The settings that hold where nothing else is said. -/
def standard : Settings := ⟨Config.standard, "info"⟩

end Settings

/-- Settings that may be left open. -/
structure Layer where
  solver : ConfigLayer := {}
  logLevel : Option String := none
  deriving DecidableEq, Repr

/-- Why the settings cannot be loaded. -/
inductive SettingsFault where
  /-- The file exists but cannot be read. -/
  | unreadable
  /-- The file does not describe settings. -/
  | malformed
  /-- An environment variable has a value that cannot be read. -/
  | override (key value : String)
  deriving DecidableEq, Repr

namespace Layer

/-- The settings of a layer, and below it those of `base`. -/
def overlay (l : Layer) (base : Settings) : Settings :=
  ⟨l.solver.overlay base.solver, l.logLevel.getD base.logLevel⟩

/-! ### The file -/

/-- The settings in a document: the level of the log, and a table for the solver. -/
def ofDocument? (d : Toml) : Option Layer := do
  match ← d.fields? ["solver", "log_level"] with
  | [solver, logLevel] =>
    return {
      solver := (← solver.mapM ConfigLayer.ofDocument?).getD {}
      logLevel := ← logLevel.mapM Toml.toText? }
  | _ => none

/-- The settings in a file. -/
def ofFile (text : String) : Except SettingsFault Layer :=
  match (Toml.read? text).bind ofDocument? with
  | some layer => .ok layer
  | none => .error .malformed

/-! ### The environment -/

/-- The value of a variable, if it is set.  White space around it does not count. -/
def readVariable {α : Type} (lookup : String → Option String) (read : List Char → Option α)
    (key : String) : Except SettingsFault (Option α) :=
  match lookup key with
  | none => .ok none
  | some value =>
    match read (Text.trim value.toList) with
    | some a => .ok (some a)
    | none => .error (.override key value)

/-- The settings in the environment. -/
def ofEnvironment (lookup : String → Option String) : Except SettingsFault Layer := do
  let tolerance ← readVariable lookup readFloat? "NEWTON_TOLERANCE"
  let maxIterations ← readVariable lookup readCount? "NEWTON_MAX_ITERATIONS"
  let maxRadius ← readVariable lookup readFloat? "NEWTON_MAX_RADIUS"
  let stepScale ← readVariable lookup readFloat? "NEWTON_STEP_SCALE"
  return {
    solver := {
      tolerance := tolerance
      maxIterations := maxIterations
      maxRadius := maxRadius.map some
      stepScale := stepScale }
    logLevel := lookup "NEWTON_LOG_LEVEL" }

end Layer

/-- What is known of a file before it is interpreted. -/
inductive FileState where
  /-- There is no such file. -/
  | absent
  /-- Something has that name but cannot be read. -/
  | unreadable
  /-- The text of the file. -/
  | text (content : String)
  deriving DecidableEq, Repr

/-- The layer of a file.  A file that does not exist says nothing. -/
def FileState.layer : FileState → Except SettingsFault Layer
  | absent => .ok {}
  | unreadable => .error .unreadable
  | text content => Layer.ofFile content

/-- The settings that a file, the environment and the command line make. -/
def Settings.load (file : FileState) (lookup : String → Option String) (flags : Layer) :
    Except SettingsFault Settings := do
  let fromFile ← file.layer
  let fromEnvironment ← Layer.ofEnvironment lookup
  return flags.overlay (fromEnvironment.overlay (fromFile.overlay Settings.standard))

end NewtonMethod
