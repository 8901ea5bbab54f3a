/-
NewtonMethod/Main.lean

The command line program: reads the file with its settings and the environment,
runs, and prints.
-/
import NewtonMethod.CommandLine.Program

namespace NewtonMethod.CommandLine

/-- The state of the file at a path.  A path that cannot be followed to its end is one without a
file; of the errors that name the path these are the ones for a part that is no directory and for a
name that is too long. -/
def readFileState (path : String) : IO FileState := do
  try
    return .text (← IO.FS.readFile path)
  catch e =>
    match e with
    | .noFileOrDirectory .. => return .absent
    | .inappropriateType (some _) .. => return .absent
    | .invalidArgument (some _) .. => return .absent
    | _ => return .unreadable

/-- The variables that the program looks at. -/
def variableNames : List String :=
  ["NEWTON_TOLERANCE", "NEWTON_MAX_ITERATIONS", "NEWTON_MAX_RADIUS", "NEWTON_STEP_SCALE",
   "NEWTON_LOG_LEVEL", "RUST_LOG"]

end NewtonMethod.CommandLine

open NewtonMethod CommandLine

/-- Runs the program. -/
def main (arguments : List String) : IO UInt32 := do
  let environment ← variableNames.mapM fun name => do return (name, ← IO.getEnv name)
  let lookup (name : String) : Option String := (environment.lookup name).join
  let file ← match readArguments arguments with
    | .ok i => readFileState i.configPath
    | .error _ => pure .absent
  let ending := run arguments (fun _ => file) lookup
  for line in ending.output do
    IO.println line.text
  for line in ending.errors do
    IO.eprintln line
  return ending.status.toUInt32
