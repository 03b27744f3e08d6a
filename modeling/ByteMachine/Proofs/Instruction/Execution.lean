import ByteMachine.Instruction.Stock
import ByteMachine.Proofs.Instruction.Dispatch

/-!
# Executing a command comes down to one call of a handler

A handler is any function of two offsets and a machine; nothing is assumed about it here.

* `Table.Calls` says which handler a command comes to and with which cells: that of the first
  operand twice for a handler that reads the destination only, those of both operands otherwise.
  `Table.Rejects` says why it comes to none. One of the two always holds (`calls_or_rejects`).
* `contains_of_cells`: what an operand is resolved to is a cell, so the look-up that dispatching
  repeats cannot fail. Resolving compares signed words, looking up compares places in the
  array; `Bank.contains_iff` is what makes the two tests agree.

`execute_eq_handler`: executing ends as that call of the handler ends, and without such a call it
does not depend on the handlers of the table at all.
-/

namespace ByteMachine.Table

variable {t : Table} {c : Command} {m : Machine} {a b : Offset}

/-! ## 1. The cells of a command exist -/

/-- **The look-up before a handler finds every cell that resolving has found.** -/
theorem contains_of_cells {arity : Arity} (h : cells arity c m = .ok (a, b)) :
    ∀ o ∈ inspected arity a b, m.memory.Contains o := by
  intro o ho
  cases arity with
  | unary =>
    obtain ⟨first, _⟩ := cells_unary_eq_ok.mp h
    have e : o = a := List.mem_singleton.mp ho
    subst e
    exact (Operand.resolve_eq_ok_iff.mp first).contains
  | binary =>
    obtain ⟨first, second⟩ := cells_binary_eq_ok.mp h
    rcases mem_inspected ho with rfl | rfl
    · exact (Operand.resolve_eq_ok_iff.mp first).contains
    · exact (Operand.resolve_eq_ok_iff.mp second).contains

/-! ## 2. Which call a command comes to -/

/-- The handler that a command comes to and the two offsets that it is given. -/
inductive Calls (t : Table) (c : Command) (m : Machine) : Handler → Offset → Offset → Prop where
  | unary {handler : Handler} {a : Offset} (found : t.find? c.opcode = some ⟨handler, .unary⟩)
      (first : c.first.resolve m = .ok a) : Calls t c m handler a a
  | binary {handler : Handler} {a b : Offset}
      (found : t.find? c.opcode = some ⟨handler, .binary⟩) (first : c.first.resolve m = .ok a)
      (second : c.second.resolve m = .ok b) : Calls t c m handler a b

/-- Why a command comes to no handler: its opcode has none, or the first of the operands that
    are needed and do not resolve says so. -/
inductive Rejects (t : Table) (c : Command) (m : Machine) : Fault → Prop where
  | unknown (missing : t.find? c.opcode = none) : Rejects t c m (.unknownInstruction c.opcode)
  | first {entry : Entry} {fault : Fault} (found : t.find? c.opcode = some entry)
      (bad : c.first.resolve m = .error fault) : Rejects t c m fault
  | second {handler : Handler} {a : Offset} {fault : Fault}
      (found : t.find? c.opcode = some ⟨handler, .binary⟩) (good : c.first.resolve m = .ok a)
      (bad : c.second.resolve m = .error fault) : Rejects t c m fault

theorem calls_or_rejects (t : Table) (c : Command) (m : Machine) :
    (∃ handler a b, t.Calls c m handler a b) ∨ ∃ fault, t.Rejects c m fault := by
  cases found : t.find? c.opcode with
  | none => exact .inr ⟨_, .unknown found⟩
  | some entry =>
    cases first : c.first.resolve m with
    | error fault => exact .inr ⟨fault, .first found first⟩
    | ok a =>
      obtain ⟨handler, arity⟩ := entry
      cases arity with
      | unary => exact .inl ⟨handler, a, a, .unary found first⟩
      | binary =>
        cases second : c.second.resolve m with
        | error fault => exact .inr ⟨fault, .second found first second⟩
        | ok b => exact .inl ⟨handler, a, b, .binary found first second⟩

theorem Calls.dispatched {handler : Handler} (h : t.Calls c m handler a b) :
    ∃ arity, t.find? c.opcode = some ⟨handler, arity⟩ ∧ cells arity c m = .ok (a, b) := by
  cases h with
  | unary found first => exact ⟨.unary, found, cells_unary_eq_ok.mpr ⟨first, rfl⟩⟩
  | binary found first second => exact ⟨.binary, found, cells_binary_eq_ok.mpr ⟨first, second⟩⟩

/-! ## 3. The two ways a run can end -/

/-- Once the cells are found, the run ends as the handler does. -/
theorem execute_of_cells {entry : Entry} (found : t.find? c.opcode = some entry)
    (good : cells entry.arity c m = .ok (a, b)) :
    ((t.execute c).run m).result = ((entry.handler a b).run m).result ∧
    ((t.execute c).run m).state = ((entry.handler a b).run m).state := by
  rw [execute_of_resolved found good]
  exact dispatch_alike_of_cells found (contains_of_cells good)

theorem Rejects.execute {fault : Fault} (h : t.Rejects c m fault) :
    (t.execute c).run m = ⟨.error fault, m, []⟩ := by
  cases h with
  | unknown missing => exact execute_of_none missing m
  | first found bad =>
    exact execute_of_unresolved found
      (cells_of_first_unresolved _ (Operand.resolve_eq_error_iff.mp bad))
  | second found good bad =>
    exact execute_of_unresolved found
      (cells_of_second_unresolved (Operand.resolve_eq_ok_iff.mp good)
        (Operand.resolve_eq_error_iff.mp bad))

/-- The reason for a rejection is the same in every table that gives the opcode the same arity,
    whatever its handlers are. -/
theorem Rejects.of_arity_eq {u : Table} {fault : Fault} (h : t.Rejects c m fault)
    (same : u.arity? c.opcode = t.arity? c.opcode) : u.Rejects c m fault := by
  unfold arity? at same
  cases h with
  | unknown missing =>
    rw [missing] at same
    exact .unknown (Option.map_eq_none_iff.mp same)
  | @first entry _ found bad =>
    rw [found] at same
    obtain ⟨other, found', _⟩ := Option.map_eq_some_iff.mp same
    exact .first found' bad
  | second found good bad =>
    rw [found] at same
    obtain ⟨⟨handler, arity⟩, found', e⟩ := Option.map_eq_some_iff.mp same
    have e : arity = .binary := e
    subst e
    exact .second found' good bad

/-! ## 4. Execution and the handler -/

/-- **Executing a command is calling its handler.** Where the operands that the handler's arity
    asks for resolve, executing ends with exactly the result and the machine of that call, and
    the look-up in between succeeds. In every other case it is refused for the first reason that
    applies, leaves the machine as it is, and calls no handler: with any other handlers of the
    same arities the whole outcome is the same. -/
theorem execute_eq_handler (t : Table) (c : Command) (m : Machine) :
    (∀ handler a b, t.Calls c m handler a b →
      ((t.execute c).run m).result = ((handler a b).run m).result ∧
      ((t.execute c).run m).state = ((handler a b).run m).state ∧
      ∀ arity, t.arity? c.opcode = some arity → (check arity a b).run m = ⟨.ok (), m, []⟩) ∧
    ((¬ ∃ handler a b, t.Calls c m handler a b) →
      ∃ fault, t.Rejects c m fault ∧ (t.execute c).run m = ⟨.error fault, m, []⟩ ∧
        ∀ u : Table, u.arity? c.opcode = t.arity? c.opcode →
          (u.execute c).run m = (t.execute c).run m) := by
  refine ⟨fun handler a b h => ?_, fun none => ?_⟩
  · obtain ⟨arity, found, good⟩ := h.dispatched
    obtain ⟨result, state⟩ := execute_of_cells found good
    refine ⟨result, state, fun arity' h' => ?_⟩
    have e : arity' = arity := by
      rw [arity?, found] at h'
      exact (Option.some.inj h').symm
    subst e
    exact check_of_contains (contains_of_cells good)
  · obtain ⟨fault, rejected⟩ := (t.calls_or_rejects c m).resolve_left none
    refine ⟨fault, rejected, rejected.execute, fun u same => ?_⟩
    rw [rejected.execute, (rejected.of_arity_eq same).execute]

/-- It holds of a handler that notes the offsets it is given: registered as reading the
    destination only, it is given that cell twice, though the second operand names no cell. -/
theorem execute_eq_handler_probe :
    let t := empty.set ⟨9, 1⟩ ⟨Stock.probe.handler, .unary⟩
    let c : Command := ⟨⟨9, 1⟩, .address ⟨0, 1⟩, .immediate 7⟩
    ∃ m, Machine.create { memorySize := 2 } = .ok m ∧ t.Calls c m Stock.probe.handler 1 1 ∧
      ((t.execute c).run m).result = .ok () ∧
      ((t.execute c).run m).state.stack.returns = [1, 1] := by
  intro t c
  obtain ⟨m, made, first, fresh⟩ : ∃ m, Machine.create { memorySize := 2 } = .ok m ∧
      c.first.resolve m = .ok 1 ∧ m.stack.returns = [] := ⟨_, rfl, rfl, rfl⟩
  have found : t.find? c.opcode = some ⟨Stock.probe.handler, .unary⟩ := by
    rw [find?_set, if_pos rfl]
  have called : t.Calls c m Stock.probe.handler 1 1 := .unary found first
  obtain ⟨result, state, _⟩ := (execute_eq_handler t c m).1 _ 1 1 called
  refine ⟨m, made, called, result, ?_⟩
  rw [state, show ((Stock.probe.handler 1 1).run m).state.stack.returns = 1 :: 1 :: m.stack.returns
    from rfl, fresh]

end ByteMachine.Table
