import ByteMachine.Action.Answer
import ByteMachine.Register.File

/-!
# Requests to the register file

What can be asked of the registers, one operation at a time. A request that is refused leaves
them as they were.
-/

namespace ByteMachine.RegisterFile

/-- One operation on the register file. -/
inductive Request where
  /-- What does a byte register hold? -/
  | read (register : Register)
  /-- Store a byte in a byte register. -/
  | write (register : Register) (value : Byte)
  /-- What does the byte register with a number hold? -/
  | readIndexed (index : UInt8)
  /-- Store a byte in the byte register with a number. -/
  | writeIndexed (index : UInt8) (value : Byte)
  /-- Where is the instruction pointer? -/
  | ip
  /-- Set the instruction pointer. -/
  | jump (target : InstructionAddress)
  /-- Move the instruction pointer to the next command. -/
  | advance
  deriving DecidableEq, Repr

/-- Carries out a request. -/
def serve : Request → Action RegisterFile Answer
  | .read r => .query fun f => (f.read r).map .byte
  | .write r value => do
    write r value
    return .done
  | .readIndexed index => .query fun f => (f.readIndexed index).map .byte
  | .writeIndexed index value => do
    writeIndexed index value
    return .done
  | .ip => .view fun f => .word f.ip
  | .jump target => do
    .modify (·.jump target)
    return .done
  | .advance => do
    .modify (·.advance)
    return .done

end ByteMachine.RegisterFile
