import ByteMachine.Instruction.Request
import ByteMachine.Instruction.Stock
import ByteMachine.Machine.Request

/-!
# Requests to a monitor

A monitor is a console over one machine, a registry of further banks, a dispatch table, and one
slot for a saved copy of the machine. This file lists what can be asked of it and what it gives
back.
-/

namespace ByteMachine.Monitor

/-- Through which a bank is looked up. -/
inductive Source where
  /-- The machine, which knows its own bank. -/
  | machine
  /-- The registry. -/
  | registry
  deriving DecidableEq, Repr

/-- Which dispatch table runs a command. -/
inductive Choice where
  /-- The monitor's own table. -/
  | own
  /-- The table of the core plugin, which never changes. -/
  | core
  deriving DecidableEq, Repr

/-- What a monitor can be asked. -/
inductive Request where
  /-- Ask something of the machine. -/
  | machine (request : Machine.Request)
  /-- Which number does the machine's memory answer to? -/
  | bankId
  /-- What does the cell of an address hold? -/
  | readAt (source : Source) (address : Address)
  /-- Show a bank. -/
  | bank (source : Source) (id : BankId)
  /-- Show the registers on one line. -/
  | registers
  /-- Show the machine. -/
  | picture
  /-- Save a copy of the machine. -/
  | snapshot
  /-- Does the machine equal the saved copy? -/
  | unchanged
  /-- Set the machine back to the saved copy. -/
  | restore
  /-- Add a bank that starts with some bytes to the registry. -/
  | insertBank (id : BankId) (size : Offset) (bytes : List Byte)
  /-- Ask something of a bank of the registry. -/
  | onBank (id : BankId) (request : Bank.Request)
  /-- Show a command. -/
  | commandText (command : Command)
  /-- Which cells do a command's operands name? -/
  | resolve (command : Command)
  /-- Show an operand. -/
  | operandText (operand : Operand)
  /-- Which cell does an operand name? -/
  | resolveOperand (operand : Operand)
  /-- Which byte does an operand stand for? -/
  | operandValue (source : Source) (operand : Operand)
  /-- Change the monitor's dispatch table. -/
  | table (request : Table.Request)
  /-- Has an opcode a handler? -/
  | hasHandler (opcode : Opcode)
  /-- Which cells does the handler of an opcode read? -/
  | arity (opcode : Opcode)
  /-- Which opcode has a name? -/
  | opcodeOf (mnemonic : String)
  /-- Which name has an opcode? -/
  | mnemonicOf (opcode : Opcode)
  /-- Show the monitor's dispatch table. -/
  | listing
  /-- Run the handler of an opcode on two cells. -/
  | dispatch (choice : Choice) (opcode : Opcode) (first second : Offset)
  /-- Run a command. -/
  | execute (choice : Choice) (command : Command)
  /-- Show a command with the name of its opcode. -/
  | describe (choice : Choice) (command : Command)
  /-- Run the handler of an opcode on two cells that are not looked up first. -/
  | handle (opcode : Opcode) (first second : Offset)
  /-- Run a command of the core plugin on two cells that are not looked up first. -/
  | handleCore (connective : Connective) (first second : Offset)

/-- What a dispatch table shows of one opcode. -/
structure Row where
  /-- The opcode. -/
  opcode : Opcode
  /-- Which cells its handler reads. -/
  arity : Arity
  /-- Its name, if it has one. -/
  mnemonic : Option String
  deriving DecidableEq, Repr

/-- What a dispatch table shows. -/
structure Listing where
  /-- How many opcodes have a handler. -/
  size : Nat
  /-- No opcode has one. -/
  isEmpty : Bool
  /-- The opcodes with a handler, in increasing order. -/
  rows : List Row
  deriving DecidableEq, Repr

/-- What a monitor gives back. -/
inductive Reply where
  /-- The answer of a part of the machine. -/
  | answer (answer : Answer)
  /-- There is no such thing. -/
  | absent
  /-- The number of a bank. -/
  | bankId (id : BankId)
  /-- A text. -/
  | text (text : String)
  /-- A bank. -/
  | bank (bank : Bank)
  /-- The cells of a command. -/
  | cells (first second : Offset)
  /-- Which cells a handler reads. -/
  | arity (arity : Arity)
  /-- An opcode. -/
  | opcode (opcode : Opcode)
  /-- A dispatch table. -/
  | listing (listing : Listing)

end ByteMachine.Monitor
