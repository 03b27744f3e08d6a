import ByteMachine.Machine.Stacks
import ByteMachine.Memory.Registry
import ByteMachine.Register.File

/-!
# The machine

A machine owns one memory bank, its primary memory, which answers to one bank number; a register
file; and the two execution stacks. Commands run as actions on it.

* `Machine.create`: a fresh machine, everything zero or empty.
* `valueAt`, `setValueAt`: the cells of the primary memory; a write respects the locks.
* `jump`, `advance`, `callTo`, `returnFromCall`: control flow. A call saves the instruction
  pointer on the return stack, a return takes it back; a return without a call is refused and
  changes nothing.
-/

namespace ByteMachine

/-- The state of a machine. -/
structure Machine where
  /-- The number that the primary memory answers to. -/
  bankId : BankId
  /-- The primary memory. -/
  memory : Bank
  /-- The registers. -/
  registers : RegisterFile
  /-- The execution stacks. -/
  stack : Stacks
  deriving DecidableEq

namespace Machine

/-! ## 1. Making a machine -/

/-- The number of cells of the primary memory, unless another is asked for. -/
def defaultMemorySize : Offset := 65536

/-- The number that the primary memory answers to, unless another is asked for. -/
def primaryBank : BankId := 0

/-- What a machine is made from. -/
structure Config where
  /-- The number of cells of the primary memory. -/
  memorySize : Offset := defaultMemorySize
  /-- The number that the primary memory answers to. -/
  bankId : BankId := primaryBank
  deriving DecidableEq, Repr

/-- A fresh machine: zeroed memory without locks, zeroed registers, empty stacks. -/
def create (config : Config) : Except Fault Machine := do
  let memory ← Bank.create config.memorySize
  return { bankId := config.bankId, memory, registers := .zeroed, stack := .empty }

/-- What the log says when a machine is made. -/
def Config.announcement (config : Config) : Event :=
  .creating config.memorySize config.bankId

/-- The banks a machine knows: its own. -/
def bank? (m : Machine) : Banks := fun id => if id = m.bankId then some m.memory else none

/-- The instruction pointer. -/
def ip (m : Machine) : InstructionAddress := m.registers.ip

/-! ## 2. Components -/

/-- Runs an action on the primary memory. -/
def onMemory {α : Type} (a : Action Bank α) : Action Machine α :=
  .within memory (fun b m => { m with memory := b }) a

/-- Runs an action on the registers. -/
def onRegisters {α : Type} (a : Action RegisterFile α) : Action Machine α :=
  .within registers (fun f m => { m with registers := f }) a

/-- Runs an action on the stacks. -/
def onStacks {α : Type} (a : Action Stacks α) : Action Machine α :=
  .within stack (fun s m => { m with stack := s }) a

/-- The content of a cell of the primary memory. -/
def valueAt (o : Offset) : Action Machine Byte := onMemory (.query (·.read o))

/-- Replaces the content of an unlocked cell of the primary memory. -/
def setValueAt (o : Offset) (value : Byte) : Action Machine Unit :=
  onMemory (Bank.write o value)

/-! ## 3. Control flow -/

/-- Moves the instruction pointer without logging. -/
def moveTo (target : InstructionAddress) : Action Machine Unit :=
  onRegisters (.modify (·.jump target))

/-- Continues at `target`. -/
def jump (target : InstructionAddress) : Action Machine Unit := do
  let here ← .view ip
  .emit (.jumping here target)
  moveTo target

/-- Moves to the next command, wrapping around at 64 bits. -/
def advance : Action Machine Unit := onRegisters (.modify (·.advance))

/-- Saves the instruction pointer on the return stack and continues at `target`. -/
def callTo (target : InstructionAddress) : Action Machine Unit := do
  let here ← .view ip
  .emit (.calling here target)
  onStacks (.modify (·.pushReturn here))
  moveTo target

/-- Continues where the last unfinished call was made. -/
def returnFromCall : Action Machine Unit := do
  let target ← onStacks Stacks.popReturn
  let here ← .view ip
  .emit (.returning here target)
  moveTo target

/-! ## 4. What the operations do -/

@[simp] theorem run_valueAt (o : Offset) (m : Machine) :
    (valueAt o).run m = ⟨m.memory.read o, m, []⟩ := by
  simp [valueAt, onMemory]

theorem run_setValueAt {o : Offset} {value : Byte} {m : Machine} {result : Except Fault Unit}
    {b : Bank} (h : (Bank.write o value).run m.memory = ⟨result, b, []⟩) :
    (setValueAt o value).run m = ⟨result, { m with memory := b }, []⟩ := by
  simp only [setValueAt, onMemory, Action.run_within, h]

theorem run_jump (target : InstructionAddress) (m : Machine) :
    (jump target).run m =
      ⟨.ok (), { m with registers := m.registers.jump target }, [.jumping m.ip target]⟩ := rfl

theorem run_advance (m : Machine) :
    advance.run m = ⟨.ok (), { m with registers := m.registers.advance }, []⟩ := rfl

theorem run_callTo (target : InstructionAddress) (m : Machine) :
    (callTo target).run m =
      ⟨.ok (), { m with
        registers := m.registers.jump target
        stack := m.stack.pushReturn m.ip }, [.calling m.ip target]⟩ := rfl

theorem returnFromCall_of_cons {m : Machine} {target : InstructionAddress}
    {rest : List InstructionAddress} (h : m.stack.returns = target :: rest) :
    returnFromCall.run m =
      ⟨.ok (), { m with
        registers := m.registers.jump target
        stack := { m.stack with returns := rest } }, [.returning m.ip target]⟩ := by
  have popped : (onStacks Stacks.popReturn).run m =
      ⟨.ok target, { m with stack := { m.stack with returns := rest } }, []⟩ := by
    simp only [onStacks, Action.run_within, Stacks.popReturn_of_cons h]
  rw [returnFromCall, Action.bind_of_ok popped]
  rfl

/-- A return without a call changes nothing and logs nothing. -/
theorem returnFromCall_of_nil {m : Machine} (h : m.stack.returns = []) :
    returnFromCall.run m = ⟨.error (.stackUnderflow .returns), m, []⟩ := by
  have refused : (onStacks Stacks.popReturn).run m = ⟨.error (.stackUnderflow .returns), m, []⟩ := by
    simp only [onStacks, Action.run_within, Stacks.popReturn_of_nil h]
  exact Action.bind_of_error refused

theorem keeps_valueAt {τ : Type} (f : Machine → τ) (o : Offset) :
    Action.Keeps f (valueAt o) := fun m => by
  rw [run_valueAt]

end Machine

end ByteMachine
