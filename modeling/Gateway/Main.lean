import Gateway.CommandLine.Report

/-!
# Gateway.Main — the program

Reads the command line, the environment and the configuration file, and says what `Job.course`
decides.
-/

set_option autoImplicit false

namespace Gateway

/-- Prints a report and exits. -/
def say (r : Report) : IO UInt32 := do
  IO.print r.out
  IO.eprint r.err
  return UInt32.ofNat r.exit

/-- The bytes of a file, if it can be read. -/
def contents? (path : String) : IO (Option Bytes) := do
  try
    return some (← IO.FS.readBinFile path).toList
  catch _ => return none

end Gateway

open Gateway

/-- The program. -/
def main (args : List String) : IO UInt32 := do
  let env : Environment :=
    { config := ← IO.getEnv "GATEWAY_CONFIG", listen := ← IO.getEnv "GATEWAY_LISTEN" }
  match Job.ofArguments args env with
  | .error report => say report
  | .ok job => match job.course (← contents? job.config) with
    | .report report => say report
    | .panic => return 101
    | .serve _ address =>
      IO.println ("configuration loaded, to be served at " ++ address.host.text ++ ":"
        ++ toString address.portNumber)
      return 0
