import SlotLogic.CommandLine.Run

/-!
Contract: the command line as a program.

Owns: the streams, the environment and the exit code of the process.

Does not own: anything that is decided.
-/

set_option autoImplicit false

open SlotLogic

/-- The variables of the environment that settings are made from. -/
def settingsVariables : List String :=
  ["SECEL_PARSE_CACHE_MAX", "SECEL_ALLOW_TRAILING_INPUT", "SECEL_BATCH_DISABLE_JIT"]

/-- The settings variables that are set. -/
def readEnvironment : IO (List (String × String)) := do
  let found ← settingsVariables.mapM fun name => do
    return (← IO.getEnv name).map fun text => (name, text)
  return found.filterMap id

def main (arguments : List String) : IO UInt32 := do
  match Settings.ofEnvironment (← readEnvironment) with
  | .error fault =>
    IO.eprintln fault.message
    return 1
  | .ok settings =>
    match CommandLine.run settings arguments with
    | .error fault =>
      IO.eprintln fault.message
      return 1
    | .ok output =>
      IO.print output.stdout
      IO.eprint output.stderr
      return output.code.toUInt32
