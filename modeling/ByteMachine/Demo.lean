import ByteMachine.Instruction.Program
import ByteMachine.Machine.Picture

/-!
# A demonstration

A short program of the core plugin on a machine of eight cells, one of which is locked. Its
output names every executed command and why it was skipped, if it was, and ends with the picture
of the machine.
-/

namespace ByteMachine.Demo

open Text

/-- A cell of the machine's memory. -/
def cell (o : Offset) : Operand := .address ⟨0, o⟩

/-- A command of the core plugin on two cells. -/
def command (c : Connective) (dst src : Offset) : Command := ⟨c.opcode, cell dst, cell src⟩

/-- The program. The last command writes to the locked cell. -/
def program : Program :=
  [command .and 0 1, command .not 1 1, command .nor 2 3, command .imp 3 0]

/-- Fills the first cells and locks the last of them. -/
def prepare : Action Machine Unit := do
  Machine.onMemory (Bank.writeSlice 0 [0b1010, 0b0110, 0xF0, 0x0F])
  Machine.onMemory (Bank.lock 3)

/-- The machine before the program runs. -/
def machine : Except Fault Machine := do
  prepare.finish (← Machine.create { memorySize := 8 })

/-- What the output says of an executed command. -/
def report (s : Program.Step) : String :=
  String.ofList (fill .right 4 (decimalChars s.ip.toInt)) ++ ": " ++ Table.core.describe s.command ++
    "\n" ++
    match s.fault with
    | some fault => "      skipped: " ++ fault.message ++ "\n"
    | none => ""

/-- The whole output. -/
def output : Except Fault String := do
  let run := program.run (← machine)
  return String.join (run.steps.map report) ++ run.machine.picture ++ "\n"

end ByteMachine.Demo
