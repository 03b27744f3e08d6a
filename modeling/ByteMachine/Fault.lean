import ByteMachine.Instruction.Opcode
import ByteMachine.Memory.Address

/-!
# Faults

Why an operation refuses to run. `Fault` lists the causes that the machine itself can meet, each
with what is needed to report it; `LookupFault` lists the two ways in which a name or a number
can fail to denote a member of a fixed vocabulary. The wording of each lives in one place
(`Fault.message`, `LookupFault.message`).
-/

namespace ByteMachine

open Text

/-! ## 1. Faults of the machine -/

/-- One of the two execution stacks. -/
inductive StackName where
  | operands
  | returns
  deriving DecidableEq, Repr

/-- The word a report uses for the stack. -/
def StackName.text : StackName → String
  | .operands => "operand"
  | .returns => "return"

theorem StackName.text_inj {a b : StackName} (h : a.text = b.text) : a = b := by
  cases a <;> cases b <;> simp [text] at h ⊢

/-- The causes for which an operation is refused. -/
inductive Fault where
  /-- A bank of negative size was asked for. -/
  | invalidSize (size : Offset)
  /-- The offset names no cell of a bank of this size. -/
  | outOfRange (offset size : Offset)
  /-- The cell is write-locked. -/
  | cellLocked (offset : Offset)
  /-- The number names no register. -/
  | invalidRegister (index : UInt8)
  /-- The instruction pointer was used as if it held a byte. -/
  | instructionPointerMisuse
  /-- Nothing is left to take from the stack. -/
  | stackUnderflow (stack : StackName)
  /-- No handler stands behind the opcode. -/
  | unknownInstruction (opcode : Opcode)
  /-- The opcode already has a handler. -/
  | duplicateHandler (opcode : Opcode)
  /-- No bank answers to this number. -/
  | unknownBank (bank : BankId)
  /-- The bank number is taken. -/
  | duplicateBank (bank : BankId)
  /-- An immediate byte stands where a cell is needed. -/
  | notAddressable
  /-- No opcode has this name. -/
  | unknownMnemonic (mnemonic : String)
  /-- The name is taken, or the opcode has one already. -/
  | duplicateMnemonic (mnemonic : String)
  deriving DecidableEq, Repr

/-- The report of a fault. -/
def Fault.message : Fault → String
  | .invalidSize size => "invalid memory size: " ++ decimal size.toInt
  | .outOfRange offset size =>
    "invalid cell index: " ++ decimal offset.toInt ++ " (expected positive and less than " ++
      decimal size.toInt ++ ")"
  | .cellLocked offset =>
    "memory cell with the address " ++ decimal offset.toInt ++ " is write-locked"
  | .invalidRegister index => "invalid register index: " ++ decimalNat index.toNat
  | .instructionPointerMisuse => "the instruction pointer cannot be accessed as a byte register"
  | .stackUnderflow stack => stack.text ++ " stack underflow"
  | .unknownInstruction opcode => "no handler registered for command " ++ opcode.text
  | .duplicateHandler opcode => "a handler is already registered for command " ++ opcode.text
  | .unknownBank bank => "unknown memory bank: " ++ decimal bank.toInt
  | .duplicateBank bank => "memory bank " ++ decimal bank.toInt ++ " is already registered"
  | .notAddressable => "an immediate operand does not address a memory cell"
  | .unknownMnemonic mnemonic => "unknown mnemonic: " ++ mnemonic
  | .duplicateMnemonic mnemonic => "mnemonic " ++ mnemonic ++ " is already registered"

/-! ## 2. Faults of a vocabulary -/

/-- A fixed list of members, each known by a name and a number. -/
inductive Vocabulary where
  /-- The registers of the machine. -/
  | registers
  /-- The commands of the core plugin. -/
  | coreCommands
  deriving DecidableEq, Repr

/-- The word a report uses for the vocabulary. -/
def Vocabulary.text : Vocabulary → String
  | .registers => "RegisterName"
  | .coreCommands => "CoreCommand"

/-- Why a name or a number denotes no member of a vocabulary. -/
inductive LookupFault where
  /-- The text is nobody's name; names are matched exactly. -/
  | unknownName
  /-- The number is nobody's number. -/
  | unknownCode (vocabulary : Vocabulary) (code : UInt8)
  deriving DecidableEq, Repr

/-- The report of a failed look-up. -/
def LookupFault.message : LookupFault → String
  | .unknownName => "Matching variant not found"
  | .unknownCode vocabulary code =>
    "No discriminant in enum `" ++ vocabulary.text ++ "` matches the value `" ++
      decimalNat code.toNat ++ "`"

end ByteMachine
