import ByteMachine.Machine.Basic
import ByteMachine.Memory.Request
import ByteMachine.Register.Request

/-!
# Requests to a machine

What can be asked of a machine, one operation at a time: of its memory, its registers, its
stacks, or of its control flow.
-/

namespace ByteMachine

namespace Stacks

/-- One operation on the stacks. -/
inductive Request where
  /-- Put a byte on the operand stack. -/
  | pushOperand (value : Byte)
  /-- Take a byte off the operand stack. -/
  | popOperand
  /-- Put an address on the return stack. -/
  | pushReturn (target : InstructionAddress)
  /-- Take an address off the return stack. -/
  | popReturn
  deriving DecidableEq, Repr

/-- Carries out a request. -/
def serve : Request → Action Stacks Answer
  | .pushOperand value => do
    .modify (·.pushOperand value)
    return .done
  | .popOperand => do
    let value ← popOperand
    return .byte value
  | .pushReturn target => do
    .modify (·.pushReturn target)
    return .done
  | .popReturn => do
    let target ← popReturn
    return .word target

end Stacks

namespace Machine

/-- One operation on a machine. -/
inductive Request where
  /-- Ask something of the primary memory. -/
  | memory (request : Bank.Request)
  /-- Ask something of the registers. -/
  | registers (request : RegisterFile.Request)
  /-- Ask something of the stacks. -/
  | stack (request : Stacks.Request)
  /-- Where is the instruction pointer? -/
  | ip
  /-- Continue somewhere else. -/
  | jump (target : InstructionAddress)
  /-- Move to the next command. -/
  | advance
  /-- Call a subroutine. -/
  | call (target : InstructionAddress)
  /-- Return from a subroutine. -/
  | ret
  deriving DecidableEq, Repr

/-- Carries out a request. -/
def serve : Request → Action Machine Answer
  | .memory request => onMemory (Bank.serve request)
  | .registers request => onRegisters (RegisterFile.serve request)
  | .stack request => onStacks (Stacks.serve request)
  | .ip => .view fun m => .word m.ip
  | .jump target => do
    jump target
    return .done
  | .advance => do
    advance
    return .done
  | .call target => do
    callTo target
    return .done
  | .ret => do
    returnFromCall
    return .done

end Machine

end ByteMachine
