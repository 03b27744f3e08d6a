import ByteMachine.Machine.Basic

/-!
# Commands

A command names its handler by an opcode and carries two operands, each an immediate byte or the
address of a cell.

An operand can stand for a byte (`Operand.value`: the immediate, or what the cell holds) or for a
cell of a machine's primary memory (`Operand.resolve`: only an address in that memory does).
-/

namespace ByteMachine

open Text

/-! ## 1. Operands -/

/-- What a command works on. -/
inductive Operand where
  /-- A byte given in the command itself. -/
  | immediate (value : Byte)
  /-- A memory cell. -/
  | address (target : Address)
  deriving DecidableEq, Repr

namespace Operand

/-- An immediate as `#value`, an address as `bank:offset`. -/
def text : Operand → String
  | .immediate value => "#" ++ decimalNat value.toNat
  | .address target => target.text

/-- The byte the operand stands for, with addresses read through `banks`. -/
def value (banks : Banks) : Operand → Except Fault Byte
  | .immediate value => .ok value
  | .address target => banks.readAt target

/-- The cell of the machine's primary memory that the operand names. -/
def resolve (m : Machine) : Operand → Except Fault Offset
  | .immediate _ => .error .notAddressable
  | .address target =>
    if target.bank ≠ m.bankId then .error (.unknownBank target.bank)
    else if target.Fits m.memory.size then .ok target.offset
    else .error (.outOfRange target.offset m.memory.size)

end Operand

/-! ## 2. Commands -/

/-- A decoded command. -/
structure Command where
  /-- Names the handler. -/
  opcode : Opcode
  /-- The destination. -/
  first : Operand
  /-- The source. -/
  second : Operand
  deriving DecidableEq, Repr

namespace Command

/-- The two operands in parentheses. -/
def operands (c : Command) : String := "(" ++ c.first.text ++ ", " ++ c.second.text ++ ")"

/-- A command as `plugin.command(first, second)`. -/
def text (c : Command) : String := c.opcode.text ++ c.operands

/-- The cells of the machine's primary memory that the operands name, the first one looked up
    first. -/
def resolve (m : Machine) (c : Command) : Except Fault (Offset × Offset) := do
  let first ← c.first.resolve m
  let second ← c.second.resolve m
  return (first, second)

end Command

end ByteMachine
