import ByteMachine.Instruction.Table
import ByteMachine.Proofs.Instruction.Connective
import ByteMachine.Proofs.Instruction.Resolution

/-!
# Dispatching and executing, for any table

Equations for a whole run of `Table.dispatch` and `Table.execute`, with nothing assumed about the
handlers.

* `dispatch_of_outside`: a cell that is looked up and does not exist ends the run before the
  handler; `dispatch_of_cells`: otherwise the handler decides.
* `execute_of_unresolved`: an operand that names no cell ends the run before anything is logged;
  `execute_of_resolved`: otherwise the command is dispatched, and the look-up that dispatching
  repeats succeeds.
-/

namespace ByteMachine.Table

variable {t : Table} {m : Machine} {opcode : Opcode} {entry : Entry} {first second : Offset}

/-! ## 1. Looking up the cells -/

/-- The offsets that are looked up before a handler of an arity runs. -/
def inspected (arity : Arity) (first second : Offset) : List Offset :=
  match arity with
  | .unary => [first]
  | .binary => [first, second]

theorem mem_inspected {arity : Arity} {o : Offset} (h : o ∈ inspected arity first second) :
    o = first ∨ o = second := by
  cases arity with
  | unary => exact .inl (List.mem_singleton.mp h)
  | binary => exact (List.mem_cons.mp h).imp_right List.mem_singleton.mp

theorem check_of_contains {arity : Arity}
    (h : ∀ o ∈ inspected arity first second, m.memory.Contains o) :
    (check arity first second).run m = ⟨.ok (), m, []⟩ := by
  cases arity with
  | unary =>
    have hf : m.memory.Contains first := h first List.mem_cons_self
    rw [check, Action.bind_of_silent (Machine.valueAt_of_contains hf)]
    rfl
  | binary =>
    have hf : m.memory.Contains first := h first List.mem_cons_self
    have hs : m.memory.Contains second := h second (List.mem_cons_of_mem _ List.mem_cons_self)
    rw [check, Action.bind_of_silent (Machine.valueAt_of_contains hf)]
    exact Action.bind_of_silent (Machine.valueAt_of_contains hs)

theorem check_of_outside {arity : Arity} {o : Offset}
    (h : (inspected arity first second).find? (fun o => ¬ m.memory.Contains o) = some o) :
    (check arity first second).run m = ⟨.error (.outOfRange o m.memory.size), m, []⟩ := by
  by_cases hf : m.memory.Contains first
  · cases arity with
    | unary => simp [inspected, hf] at h
    | binary =>
      by_cases hs : m.memory.Contains second
      · simp [inspected, hf, hs] at h
      · have e : second = o := by simpa [inspected, hf, hs] using h
        subst e
        rw [check, Action.bind_of_silent (Machine.valueAt_of_contains hf)]
        exact Action.bind_of_error (Machine.valueAt_of_not_contains hs)
  · have e : first = o := by cases arity <;> simpa [inspected, hf] using h
    subst e
    exact Action.bind_of_error (Machine.valueAt_of_not_contains hf)

/-! ## 2. Dispatching -/

theorem dispatch_of_none (h : t.find? opcode = none) (first second : Offset) (m : Machine) :
    (t.dispatch opcode first second).run m = ⟨.error (.unknownInstruction opcode), m, []⟩ := by
  rw [dispatch, h]
  rfl

/-- A missing cell ends the run before the handler. -/
theorem dispatch_of_outside (h : t.find? opcode = some entry) {o : Offset}
    (out : (inspected entry.arity first second).find? (fun o => ¬ m.memory.Contains o) = some o) :
    (t.dispatch opcode first second).run m =
      ⟨.error (.outOfRange o m.memory.size), m,
        [.dispatching (t.mnemonic? opcode) first second]⟩ := by
  rw [dispatch, h]
  simp only
  rw [Action.bind_of_ok (Action.run_emit _ m), Action.bind_of_error (check_of_outside out)]
  rfl

/-- If all cells exist the handler decides. -/
theorem dispatch_of_cells (h : t.find? opcode = some entry)
    (cells : ∀ o ∈ inspected entry.arity first second, m.memory.Contains o) :
    (t.dispatch opcode first second).run m =
      let out := (Action.reporting (.failing opcode) (entry.handler first second)).run m
      ⟨out.result, out.state, .dispatching (t.mnemonic? opcode) first second :: out.log⟩ := by
  rw [dispatch, h]
  simp only
  rw [Action.bind_of_ok (Action.run_emit _ m), Action.bind_of_silent (check_of_contains cells)]
  rfl

theorem dispatch_alike_of_cells (h : t.find? opcode = some entry)
    (cells : ∀ o ∈ inspected entry.arity first second, m.memory.Contains o) :
    (t.dispatch opcode first second).Alike (entry.handler first second) m := by
  unfold Action.Alike
  rw [dispatch_of_cells h cells]
  exact ⟨Action.result_reporting _ _ m, Action.state_reporting _ _ m⟩

/-! ## 3. Executing -/

theorem execute_of_none {c : Command} (h : t.find? c.opcode = none) (m : Machine) :
    (t.execute c).run m = ⟨.error (.unknownInstruction c.opcode), m, []⟩ := by
  rw [execute, h]
  rfl

theorem execute_of_unresolved {c : Command} (h : t.find? c.opcode = some entry) {fault : Fault}
    (bad : cells entry.arity c m = .error fault) :
    (t.execute c).run m = ⟨.error fault, m, []⟩ := by
  rw [execute, h]
  exact Action.query_bind_of_error bad

theorem execute_of_resolved {c : Command} (h : t.find? c.opcode = some entry)
    (good : cells entry.arity c m = .ok (first, second)) :
    (t.execute c).run m = (t.dispatch c.opcode first second).run m := by
  rw [execute, h]
  simp only
  rw [Action.query_bind_of_ok good]

/-! ## 4. The cells of a command -/

section Cells

variable {c : Command} {fault : Fault} {a b : Offset}

theorem cells_unary_eq_ok :
    cells .unary c m = .ok (a, b) ↔ c.first.resolve m = .ok a ∧ b = a := by
  unfold cells
  cases c.first.resolve m with
  | error fault => simp [bind, Except.bind]
  | ok o =>
    simp only [bind, Except.bind, pure, Except.pure, Except.ok.injEq, Prod.mk.injEq]
    constructor
    · rintro ⟨rfl, rfl⟩
      exact ⟨rfl, rfl⟩
    · rintro ⟨rfl, rfl⟩
      exact ⟨rfl, rfl⟩

theorem cells_binary_eq_ok :
    cells .binary c m = .ok (a, b) ↔ c.first.resolve m = .ok a ∧ c.second.resolve m = .ok b := by
  unfold cells Command.resolve
  cases c.first.resolve m with
  | error fault => simp [bind, Except.bind]
  | ok o =>
    cases c.second.resolve m with
    | error fault => simp [bind, Except.bind]
    | ok p => simp [bind, Except.bind, pure, Except.pure]

theorem cells_of_first_unresolved (arity : Arity) (hf : c.first.Unresolved m fault) :
    cells arity c m = .error fault := by
  cases arity <;>
    simp [cells, Command.resolve, Operand.resolve_of_unresolved hf, bind, Except.bind]

theorem cells_of_second_unresolved (hf : c.first.Denotes m first)
    (hs : c.second.Unresolved m fault) : cells .binary c m = .error fault := by
  simp [cells, Command.resolve, Operand.resolve_of_denotes hf, Operand.resolve_of_unresolved hs,
    bind, Except.bind]

end Cells

end ByteMachine.Table
