import PostScriptCore.Demo.CommandLine

/-!
# The program

Runs the demonstration with the arguments of the command line.
-/

open PostScriptCore

/-- Prints what the call prints, complains on the error stream, and ends with its exit code. -/
def main (args : List String) : IO UInt32 := do
  let outcome := CommandLine.run args
  IO.print outcome.printed
  match outcome.complaint with
  | some text => IO.eprintln text
  | none => pure ()
  return UInt32.ofNat outcome.exitCode
