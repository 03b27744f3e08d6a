import ByteMachine.Instruction.Table

/-!
# Requests to a dispatch table

What can change a dispatch table, one operation at a time. Loading the core plugin is the only
one that can be refused half way.
-/

namespace ByteMachine.Table

/-- One change of a table. -/
inductive Request where
  /-- Register a handler; unless an arity is given it reads both cells. -/
  | register (opcode : Opcode) (handler : Handler) (arity : Option Arity)
  /-- Name an opcode. -/
  | name (opcode : Opcode) (mnemonic : String)
  /-- Register and name the commands of the core plugin. -/
  | registerCore

/-- Carries out a request. -/
def serve : Request → Action Table Unit
  | .register opcode handler none => register opcode handler
  | .register opcode handler (some arity) => registerWith opcode arity handler
  | .name opcode mnemonic => name opcode mnemonic
  | .registerCore => registerCore

end ByteMachine.Table
