/-
NewtonMethod/CommandLine/Arguments.lean

The arguments of the program.

Some options are for all commands and may stand before or after the command;
after it they take precedence.  All others follow their command.
-/
import NewtonMethod.CommandLine.Commands
import NewtonMethod.CommandLine.Options

namespace NewtonMethod.CommandLine

/-- What the arguments ask for. -/
structure Invocation where
  /-- Show what happens in detail. -/
  verbose : Bool
  /-- The path of the file with settings. -/
  configPath : String
  /-- The settings among the arguments. -/
  flags : Layer
  /-- The command. -/
  command : Command

/-! ### Values -/

/-- The number in an argument. -/
def real? (s : String) : Option Float := readFloat? s.toList

/-- The count in an argument. -/
def count? (s : String) : Option Nat := readCount? s.toList

/-- The numbers in an argument, separated by commas. -/
def reals? (s : String) : Option (List Float) := (s.toList.splitOn ',').mapM readFloat?

/-- An option whose value is a number. -/
def realOpt (name : String) (hyphens : Hyphens) : Opt :=
  { name := name, kind := .value hyphens fun s => (real? s).isSome }

/-- An option whose value is any text. -/
def textOpt (name : String) : Opt := { name := name, kind := .value .any fun _ => true }

/-! ### Options -/

/-- The request for help. -/
def helpOpt : Opt := { name := "help", letter := some 'h', kind := .exit .help }

/-- The options for all commands. -/
def globalOpts : List Opt :=
  [{ name := "verbose", letter := some 'v', kind := .switch },
   { name := "config", letter := some 'c', kind := .value .none fun s => !s.isEmpty },
   realOpt "tolerance" .none,
   { name := "max-iterations", kind := .value .none fun s => (count? s).isSome },
   realOpt "max-radius" .none,
   helpOpt]

/-- The options before the command. -/
def leadingOpts : List Opt :=
  { name := "version", letter := some 'V', kind := .exit .version } :: globalOpts

/-- The switch that asks for the exact derivative. -/
def analyticOpt : Opt := { name := "analytic", kind := .switch }

/-- The options of a command. -/
def commandOpts? : String → Option (List Opt)
  | "polynomial" => some
    [{ name := "coefficients", kind := .value .any fun s => (reals? s).isSome, collects := true },
     realOpt "x0" .numbers, analyticOpt]
  | "trig" => some
    [realOpt "a" .numbers, realOpt "b" .numbers, realOpt "c" .numbers, realOpt "x0" .numbers,
     analyticOpt]
  | "linear" => some [textOpt "matrix", textOpt "rhs", textOpt "x0"]
  | "check" => some []
  | _ => none

/-- The command with the options that were given, if none is missing. -/
def command? (g : Given) : String → Option Command
  | "polynomial" => do
    let coefficients ← (g.values "coefficients").mapM reals?
    if coefficients.isEmpty then none
    else
      return .polynomial coefficients.flatten (← (← g.value? "x0").toList |> readFloat?)
        (g.has "analytic")
  | "trig" => do
    let number (name : String) : Option Float := (g.value? name).bind real?
    return .trig ⟨← number "a", ← number "b", ← number "c"⟩ (← number "x0") (g.has "analytic")
  | "linear" => do
    return .linear (← g.value? "matrix") (← g.value? "rhs") (g.value? "x0")
  | "check" => some .check
  | _ => none

/-- The settings among the options. -/
def flags (g : Given) : Layer where
  solver := {
    tolerance := (g.value? "tolerance").bind real?
    maxIterations := (g.value? "max-iterations").bind count?
    maxRadius := ((g.value? "max-radius").bind real?).map some }

/-- Help is there for the program and for each of its commands. -/
def isTopic : List String → Bool
  | [] => true
  | [name] => name = "help" || (commandOpts? name).isSome
  | _ => false

/-- What a list of arguments asks for. -/
def readArguments (arguments : List String) : Except Exit Invocation := do
  let (leading, rest) ← readOptions leadingOpts none [] arguments
  match rest with
  | [] => .error .usage
  | "help" :: topic => .error (if isTopic topic then .help else .usage)
  | name :: rest =>
    match commandOpts? name with
    | none => .error .usage
    | some opts =>
      let (following, rest) ← readOptions (opts ++ globalOpts) none [] rest
      let all := leading ++ following
      match rest, command? following name with
      | [], some command =>
        return {
          verbose := all.has "verbose"
          configPath := (all.value? "config").getD "newton.toml"
          flags := flags all
          command := command }
      | _, _ => .error .usage

end NewtonMethod.CommandLine
