/-
NewtonMethod/CommandLine/Program.lean

The program as a function: from its arguments, the file with its settings and
the environment to what it prints and its exit status.

    0    the command has succeeded
    1    the settings cannot be loaded, or the command has failed
    2    the arguments make no sense
-/
import NewtonMethod.CommandLine.Arguments

namespace NewtonMethod

/-- What is wrong with the arguments of a command. -/
def ArgumentFault.message : ArgumentFault → String
  | .notANumber entry => "not a number: '" ++ entry ++ "'"
  | .unequalRows => "matrix rows differ in length"
  | .constantPolynomial => "polynomial must have degree of at least 1"
  | .rightHandSide rows cols entries =>
    "matrix is " ++ toString rows ++ "x" ++ toString cols ++ " but right-hand side has "
      ++ toString entries ++ " entries"
  | .initialGuess entries expected =>
    "initial guess has " ++ toString entries ++ " entries, expected " ++ toString expected

/-- Why the settings cannot be loaded. -/
def SettingsFault.message : SettingsFault → String
  | .unreadable => "IO error:"
  | .malformed => "Parse error:"
  | .override key value => "Invalid value for " ++ key ++ ": " ++ value

namespace CommandLine

/-- The end of a run of the program. -/
structure Ending where
  /-- The exit status. -/
  status : Nat
  /-- What is printed. -/
  output : List Log.Line
  /-- What is printed as an error, line by line. -/
  errors : List String

/-- The lines of a text. -/
def lines (s : String) : List String := (s.toList.splitOn '\n').map String.ofList

/-- An error, and what has caused it. -/
def errorLines (what : String) (cause : Option String) : List String :=
  lines ("Error: " ++ what) ++ match cause with
    | none => []
    | some cause => ["", "Caused by:"] ++ (lines cause).map ("    " ++ ·)

/-- The end of a run with a failed command, after some warnings. -/
def failed (output : List Log.Line) (warnings : List String) : CommandError → Ending
  | .argument fault =>
    ⟨1, output, warnings ++ errorLines ("Invalid argument: " ++ fault.message) none⟩
  | .solver e =>
    ⟨1, output, warnings ++ errorLines ("Solver error: " ++ e.message) (some e.message)⟩
  | .shape _ => ⟨101, output, warnings⟩

/-- The text of the filter for the log: the one in the environment, if all of it makes sense, or
else the level of the settings. -/
def filterText (lookup : String → Option String) (level : String) : String :=
  match lookup "RUST_LOG" with
  | some text => if (Log.Filter.ignored text).isEmpty then text else level
  | none => level

/-- Carries out what the arguments ask for. -/
def invoke (i : Invocation) (file : FileState) (lookup : String → Option String) : Ending :=
  match Settings.load file lookup i.flags with
  | .error fault => ⟨1, [], errorLines ("loading " ++ i.configPath) (some fault.message)⟩
  | .ok settings =>
    let text := filterText lookup (if i.verbose then "debug" else settings.logLevel)
    let filter := Log.Filter.ofText text
    let warnings := (Log.Filter.ignored text).flatMap fun piece => lines piece.message
    let opening := if i.verbose then [Command.info "newton" "Verbose mode enabled"] else []
    let transcript := i.command.run settings
    let output := (opening ++ transcript.lines).filter (·.passes filter)
    match transcript.failure with
    | none => ⟨0, output, warnings⟩
    | some e => failed output warnings e

/-- What the program can be asked for. -/
def synopsis : List String :=
  ["usage: newton [options] command",
   "",
   "  polynomial --coefficients C,C,... --x0 X [--analytic]",
   "  trig --a A --b B --c C --x0 X [--analytic]",
   "  linear --matrix \"A,A;A,A\" --rhs B,B [--x0 X,X]",
   "  check",
   "  help",
   "",
   "  -v, --verbose          show what happens in detail",
   "  -c, --config FILE      the file with settings (newton.toml)",
   "  --tolerance T          the largest norm of a residual that counts as zero",
   "  --max-iterations N     how many residuals are looked at",
   "  --max-radius R         the longest step",
   "  -h, --help             show this text",
   "  -V, --version          show the version"]

/-- The end of a run whose arguments are not carried out. -/
def Exit.ending : Exit → Ending
  | .usage => ⟨2, [], synopsis⟩
  | .version => ⟨0, [.result "newton 0.1.0"], []⟩
  | .help => ⟨0, synopsis.map .result, []⟩

/-- The whole program.  Only the file that the arguments name is looked at. -/
def run (arguments : List String) (files : String → FileState)
    (lookup : String → Option String) : Ending :=
  match readArguments arguments with
  | .error e => e.ending
  | .ok i => invoke i (files i.configPath) lookup

end CommandLine

end NewtonMethod
