import ByteMachine.Demo

/-!
# The command line

Runs the demonstration and prints its output.
-/

/-- Prints the output of the demonstration. -/
def main : IO UInt32 := do
  match ByteMachine.Demo.output with
  | .ok text =>
    IO.print text
    return 0
  | .error fault =>
    IO.eprintln ("Error: " ++ fault.message)
    return 1
