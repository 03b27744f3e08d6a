import ByteMachine.Instruction.Table

/-!
# Commands that work on the memory alone

`Machine.MemoryOnly a` says that an action works on the primary memory and on nothing else: the
memory and its number fix the result, the memory left behind and the log, whatever the registers
and the stacks hold, and those are handed on as they are. Like `Action.Keeps` it passes through
every way of composing actions, and it gives two things at once: what the action keeps
(`MemoryOnly.keeps_registers`, `MemoryOnly.keeps_stack`) and what it does not look at
(`MemoryOnly.run_with_registers`).

Every connective is such an action (`Connective.memoryOnly_handler`), and so are dispatching and
executing by the core table.
-/

namespace ByteMachine

namespace Machine

variable {α β : Type}

/-! ## 1. Working on the memory alone -/

/-- The action works on the primary memory alone; it may look at its number. -/
def MemoryOnly (a : Action Machine α) : Prop :=
  ∀ bankId memory, ∃ result after log, ∀ registers stack,
    a.run ⟨bankId, memory, registers, stack⟩ = ⟨result, ⟨bankId, after, registers, stack⟩, log⟩

theorem memoryOnly_onMemory (a : Action Bank α) : MemoryOnly (onMemory a) :=
  fun _ memory => ⟨(a.run memory).result, (a.run memory).state, (a.run memory).log, fun _ _ => rfl⟩

theorem memoryOnly_pure (x : α) : MemoryOnly (pure x) :=
  fun _ memory => ⟨.ok x, memory, [], fun _ _ => rfl⟩

theorem memoryOnly_fail (fault : Fault) : MemoryOnly (.fail fault : Action Machine α) :=
  fun _ memory => ⟨.error fault, memory, [], fun _ _ => rfl⟩

theorem memoryOnly_emit (event : Event) : MemoryOnly (.emit event) :=
  fun _ memory => ⟨.ok (), memory, [event], fun _ _ => rfl⟩

theorem MemoryOnly.bind {a : Action Machine α} {f : α → Action Machine β} (ha : MemoryOnly a)
    (hf : ∀ x, MemoryOnly (f x)) : MemoryOnly (a >>= f) := by
  intro bankId memory
  obtain ⟨result, after, log, first⟩ := ha bankId memory
  cases result with
  | error fault =>
    exact ⟨.error fault, after, log, fun registers stack =>
      Action.bind_of_error (first registers stack)⟩
  | ok x =>
    obtain ⟨result, last, more, second⟩ := hf x bankId after
    refine ⟨result, last, log ++ more, fun registers stack => ?_⟩
    rw [Action.bind_of_ok (first registers stack), second registers stack]

theorem MemoryOnly.reporting {a : Action Machine α} (ha : MemoryOnly a) (event : Fault → Event) :
    MemoryOnly (.reporting event a) := by
  intro bankId memory
  obtain ⟨result, after, log, run⟩ := ha bankId memory
  cases result with
  | error fault =>
    exact ⟨.error fault, after, log ++ [event fault], fun registers stack =>
      Action.reporting_of_error (run registers stack)⟩
  | ok x =>
    exact ⟨.ok x, after, log, fun registers stack =>
      Action.reporting_of_ok (run registers stack)⟩

section Frame

variable {a : Action Machine α}

theorem MemoryOnly.keeps_registers (h : MemoryOnly a) : Action.Keeps registers a := by
  intro m
  obtain ⟨result, after, log, run⟩ := h m.bankId m.memory
  have here : a.run m = _ := run m.registers m.stack
  rw [here]

theorem MemoryOnly.keeps_stack (h : MemoryOnly a) : Action.Keeps stack a := by
  intro m
  obtain ⟨result, after, log, run⟩ := h m.bankId m.memory
  have here : a.run m = _ := run m.registers m.stack
  rw [here]

/-- With other registers the action does the same and leaves those registers. -/
theorem MemoryOnly.run_with_registers (h : MemoryOnly a) (m : Machine) (registers : RegisterFile) :
    (a.run { m with registers }).result = (a.run m).result ∧
    (a.run { m with registers }).state = { (a.run m).state with registers } := by
  obtain ⟨result, after, log, run⟩ := h m.bankId m.memory
  have here : a.run m = _ := run m.registers m.stack
  have there : a.run { m with registers } = _ := run registers m.stack
  rw [here, there]
  exact ⟨rfl, rfl⟩

end Frame

end Machine

/-! ## 2. Connectives -/

namespace Connective

theorem memoryOnly_combine (f : Byte → Byte → Byte) (dst src : Offset) :
    Machine.MemoryOnly (combine f dst src) :=
  (Machine.memoryOnly_onMemory _).bind fun _ =>
    (Machine.memoryOnly_onMemory _).bind fun _ => Machine.memoryOnly_onMemory _

theorem memoryOnly_negate (dst src : Offset) : Machine.MemoryOnly (negate dst src) :=
  (Machine.memoryOnly_onMemory _).bind fun _ => Machine.memoryOnly_onMemory _

theorem memoryOnly_handler (k : Connective) (dst src : Offset) :
    Machine.MemoryOnly (k.handler dst src) := by
  cases k with
  | and | or | xor => exact memoryOnly_combine _ dst src
  | not => exact memoryOnly_negate dst src
  | eqv | nand | nor =>
    exact (memoryOnly_combine _ dst src).bind fun _ => memoryOnly_negate dst src
  | imp =>
    exact (Machine.memoryOnly_onMemory _).bind fun _ =>
      (memoryOnly_negate dst src).bind fun _ => memoryOnly_combine _ dst src

end Connective

/-! ## 3. The core table -/

namespace Table

theorem memoryOnly_check (arity : Arity) (first second : Offset) :
    Machine.MemoryOnly (check arity first second) := by
  refine (Machine.memoryOnly_onMemory _).bind fun _ => ?_
  cases arity with
  | unary => exact Machine.memoryOnly_pure ()
  | binary => exact (Machine.memoryOnly_onMemory _).bind fun _ => Machine.memoryOnly_pure ()

/-- Resolving operands looks at the memory's number and size only. -/
theorem memoryOnly_cells (arity : Arity) (c : Command) :
    Machine.MemoryOnly (.query (cells arity c)) := by
  intro bankId memory
  refine ⟨cells arity c ⟨bankId, memory, .zeroed, .empty⟩, memory, [], fun registers stack => ?_⟩
  have same (x : Operand) : x.resolve ⟨bankId, memory, registers, stack⟩ =
      x.resolve ⟨bankId, memory, .zeroed, .empty⟩ := by
    cases x <;> rfl
  cases arity with
  | unary => simp only [Action.run_query, cells, same]
  | binary => simp only [Action.run_query, cells, Command.resolve, same]

theorem memoryOnly_dispatch_core (opcode : Opcode) (first second : Offset) :
    Machine.MemoryOnly (core.dispatch opcode first second) := by
  cases found : core.find? opcode with
  | none =>
    rw [dispatch, found]
    exact Machine.memoryOnly_fail _
  | some entry =>
    obtain ⟨k, _, rfl⟩ := exists_connective found
    rw [dispatch, found]
    exact (Machine.memoryOnly_emit _).bind fun _ =>
      (memoryOnly_check _ first second).bind fun _ =>
        (k.memoryOnly_handler first second).reporting _

theorem memoryOnly_execute_core (c : Command) : Machine.MemoryOnly (core.execute c) := by
  cases found : core.find? c.opcode with
  | none =>
    rw [execute, found]
    exact Machine.memoryOnly_fail _
  | some entry =>
    rw [execute, found]
    exact (memoryOnly_cells entry.arity c).bind fun _ => memoryOnly_dispatch_core c.opcode _ _

end Table

end ByteMachine
