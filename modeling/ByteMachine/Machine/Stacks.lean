import ByteMachine.Action.Basic
import ByteMachine.Register.File

/-!
# The execution stacks

A stack of bytes for the operands of commands and a stack of return addresses for calls. Both are
unbounded and independent of each other; taking from an empty one is refused.
-/

namespace ByteMachine

/-- The two stacks, each with its top first. -/
structure Stacks where
  /-- The operands of commands. -/
  operands : List Byte
  /-- Where calls return to. -/
  returns : List InstructionAddress
  deriving DecidableEq

namespace Stacks

/-- Both stacks are empty. -/
def empty : Stacks := ⟨[], []⟩

/-- Puts a byte on the operand stack. -/
def pushOperand (s : Stacks) (value : Byte) : Stacks := { s with operands := value :: s.operands }

/-- Takes the top byte off the operand stack. -/
def popOperand : Action Stacks Byte := do
  match ← .view (·.operands) with
  | value :: rest =>
    .modify ({ · with operands := rest })
    return value
  | [] => .fail (.stackUnderflow .operands)

/-- Puts an address on the return stack. -/
def pushReturn (s : Stacks) (target : InstructionAddress) : Stacks :=
  { s with returns := target :: s.returns }

/-- Takes the top address off the return stack. -/
def popReturn : Action Stacks InstructionAddress := do
  match ← .view (·.returns) with
  | target :: rest =>
    .modify ({ · with returns := rest })
    return target
  | [] => .fail (.stackUnderflow .returns)

theorem popReturn_of_nil {s : Stacks} (h : s.returns = []) :
    popReturn.run s = ⟨.error (.stackUnderflow .returns), s, []⟩ := by
  rw [popReturn, Action.run_view_bind]
  simp only [h]
  rfl

theorem popReturn_of_cons {s : Stacks} {target : InstructionAddress}
    {rest : List InstructionAddress} (h : s.returns = target :: rest) :
    popReturn.run s = ⟨.ok target, { s with returns := rest }, []⟩ := by
  rw [popReturn, Action.run_view_bind]
  simp only [h]
  rfl

theorem popOperand_of_nil {s : Stacks} (h : s.operands = []) :
    popOperand.run s = ⟨.error (.stackUnderflow .operands), s, []⟩ := by
  rw [popOperand, Action.run_view_bind]
  simp only [h]
  rfl

theorem popOperand_of_cons {s : Stacks} {value : Byte} {rest : List Byte}
    (h : s.operands = value :: rest) :
    popOperand.run s = ⟨.ok value, { s with operands := rest }, []⟩ := by
  rw [popOperand, Action.run_view_bind]
  simp only [h]
  rfl

end Stacks

end ByteMachine
