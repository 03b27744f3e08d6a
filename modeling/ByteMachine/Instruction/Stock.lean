import ByteMachine.Instruction.Connective

/-!
# Ready-made handlers

Handlers under fixed names, to fill a dispatch table with: the connectives of the core plugin,
and small moves between the memory, the stacks and the instruction pointer. Each is composed from
the machine's own operations; it ends at the first that is refused, and what was done before
stays.
-/

namespace ByteMachine

/-- The ready-made handlers. -/
inductive Stock where
  /-- A command of the core plugin. -/
  | connective (c : Connective)
  /-- Zeroes the destination. -/
  | clear
  /-- Copies the source to the destination. -/
  | copy
  /-- Puts the destination's content on the operand stack. -/
  | push
  /-- Takes a byte off the operand stack and stores it in the destination. -/
  | pop
  /-- Calls the place that the source's offset is read as. -/
  | call
  /-- Returns from a call. -/
  | ret
  /-- Write-locks the destination. -/
  | seal
  /-- Stores 0xEE in the destination and then 0xDD in the source. -/
  | fillBoth
  /-- Puts both offsets on the return stack, the destination's first. -/
  | probe
  deriving DecidableEq, Repr

namespace Stock

/-- The ready-made handlers that are not connectives. -/
def moves : List Stock := [.clear, .copy, .push, .pop, .call, .ret, .seal, .fillBoth, .probe]

/-- All ready-made handlers. -/
def all : List Stock := Connective.all.map .connective ++ moves

/-- The handler's name. -/
def name : Stock → String
  | .connective c => c.mnemonic
  | .clear => "clear"
  | .copy => "copy"
  | .push => "push"
  | .pop => "pop"
  | .call => "call"
  | .ret => "ret"
  | .seal => "seal"
  | .fillBoth => "fill_both"
  | .probe => "probe"

/-- The ready-made handler with exactly this name. -/
def ofName? (name : String) : Option Stock := all.find? (·.name == name)

/-- The ready-made handler with this name, or the report that there is none. -/
def named (name : String) : Except LookupFault Stock :=
  match ofName? name with
  | some s => .ok s
  | none => .error .unknownName

/-- How a ready-made handler runs. -/
def handler : Stock → Handler
  | .connective c => c.handler
  | .clear => fun dst _ => Machine.setValueAt dst 0
  | .copy => fun dst src => do
    let value ← Machine.valueAt src
    Machine.setValueAt dst value
  | .push => fun dst _ => do
    let value ← Machine.valueAt dst
    Machine.onStacks (.modify (·.pushOperand value))
  | .pop => fun dst _ => do
    let value ← Machine.onStacks Stacks.popOperand
    Machine.setValueAt dst value
  | .call => fun _ src => Machine.callTo src
  | .ret => fun _ _ => Machine.returnFromCall
  | .seal => fun dst _ => Machine.onMemory (Bank.lock dst)
  | .fillBoth => fun dst src => do
    Machine.setValueAt dst 0xEE
    Machine.setValueAt src 0xDD
  | .probe => fun dst src => do
    Machine.onStacks (.modify (·.pushReturn dst))
    Machine.onStacks (.modify (·.pushReturn src))

@[simp] theorem ofName?_name (s : Stock) : ofName? s.name = some s := by
  cases s with
  | connective c => cases c <;> decide
  | _ => decide

end Stock

end ByteMachine
