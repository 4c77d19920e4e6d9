import AttrExpr.Command.Line

/-!
# The Program

Prints the report of a run and ends with its status.
-/

def main (arguments : List String) : IO UInt32 := do
  let report := AttrExpr.CommandLine.run arguments
  (← IO.getStdout).putStr report.output
  (← IO.getStderr).putStr report.errors
  return report.status
