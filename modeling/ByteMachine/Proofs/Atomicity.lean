import ByteMachine.Proofs.Instruction.Dispatch

/-!
# A failed operation changes nothing

`Action.Atomic a` says that whenever `a` fails it leaves the state in which it was started. A
single step is atomic: it either looks at the state or cannot fail. Composing loses it, an action
that has already changed the state may still fail in a later part. Two ways of composing keep it:

* `Atomic.after_keeping`: what comes first never changes the state;
* `Atomic.before_total`: what comes last never fails.

The operations on memory, registers and stacks check first and change last, and so does the
dispatch table. The connectives of two steps do not: they write first and then run another step
that can fail. They are atomic because the second step cannot fail where the first one has
written; that is read off the equations for whole runs (`Connective.atomic_handler`).
-/

namespace ByteMachine

namespace Action

variable {σ τ α β : Type}

/-! ## 1. Atomic actions -/

/-- Whenever the action fails it leaves the state as it found it. -/
def Atomic (a : Action σ α) : Prop :=
  ∀ s fault, (a.run s).result = .error fault → (a.run s).state = s

theorem atomic_modify (f : σ → σ) : Atomic (modify f) := fun _ _ => nofun

theorem atomic_fail (fault : Fault) : Atomic (fail fault : Action σ α) := fun _ _ _ => rfl

/-- An atomic action on a component is atomic on the whole. -/
theorem Atomic.within {get : σ → τ} {put : τ → σ → σ} {a : Action τ α} (ha : Atomic a)
    (same : ∀ s, put (get s) s = s) : Atomic (within get put a) := by
  intro s fault failed
  rw [run_within] at failed ⊢
  rw [ha (get s) fault failed]
  exact same s

theorem Atomic.reporting {a : Action σ α} (ha : Atomic a) (event : Fault → Event) :
    Atomic (reporting event a) := by
  intro s fault failed
  rw [result_reporting] at failed
  rw [state_reporting]
  exact ha s fault failed

/-- An action that never changes the state may come before an atomic one. -/
theorem Atomic.after_keeping {a : Action σ α} {g : α → Action σ β} (keeps : Keeps id a)
    (hg : ∀ x, Atomic (g x)) : Atomic (a >>= g) := by
  intro s fault failed
  have kept := keeps s
  rcases h : a.run s with ⟨cause | x, t, log⟩
  · rw [h] at kept
    rw [bind_of_error h]
    exact kept
  · rw [h] at kept
    have e : t = s := kept
    subst e
    rw [bind_of_ok h] at failed ⊢
    exact hg x t fault failed

/-- An action that never fails may come after an atomic one. -/
theorem Atomic.before_total {a : Action σ α} {g : α → Action σ β} (ha : Atomic a)
    (total : ∀ x s fault, ((g x).run s).result ≠ .error fault) : Atomic (a >>= g) := by
  intro s fault failed
  rcases h : a.run s with ⟨cause | x, t, log⟩
  · have kept := ha s cause
    rw [h] at kept
    rw [bind_of_error h]
    exact kept rfl
  · rw [bind_of_ok h] at failed
    exact absurd failed (total x t fault)

end Action

open ByteMachine.Action

/-! ## 2. Memory, registers, stacks, machine -/

namespace Bank

/-- Both checks come before the cell is replaced. -/
theorem atomic_write (o : Offset) (value : Byte) : Atomic (write o value) :=
  .after_keeping (keeps_query id _) fun _ =>
    .after_keeping (keeps_query id _) fun _ => atomic_modify _

/-- All three checks come before the cells are replaced. -/
theorem atomic_writeSlice (o : Offset) (bytes : List Byte) : Atomic (writeSlice o bytes) :=
  .after_keeping (keeps_query id _) fun _ =>
    .after_keeping (keeps_query id _) fun _ =>
      .after_keeping (keeps_query id _) fun _ => atomic_modify _

theorem atomic_lock (o : Offset) : Atomic (lock o) :=
  .after_keeping (keeps_query id _) fun _ => atomic_modify _

theorem atomic_unlock (o : Offset) : Atomic (unlock o) :=
  .after_keeping (keeps_query id _) fun _ => atomic_modify _

end Bank

theorem Registry.atomic_insert (id : BankId) (bank : Bank) : Atomic (insert id bank) := by
  refine .after_keeping (keeps_query _ _) fun found => ?_
  cases found with
  | none => exact atomic_modify _
  | some old => exact atomic_fail _

namespace RegisterFile

theorem atomic_write (r : Register) (value : Byte) : Atomic (write r value) :=
  .after_keeping (keeps_query id _) fun _ => atomic_modify _

theorem atomic_writeIndexed (index : UInt8) (value : Byte) : Atomic (writeIndexed index value) :=
  .after_keeping (keeps_query id _) fun r => atomic_write r value

end RegisterFile

namespace Stacks

theorem atomic_popOperand : Atomic popOperand := by
  refine .after_keeping (keeps_query id _) fun operands => ?_
  cases operands with
  | nil => exact atomic_fail _
  | cons value rest => exact (atomic_modify _).before_total fun _ _ _ => nofun

theorem atomic_popReturn : Atomic popReturn := by
  refine .after_keeping (keeps_query id _) fun returns => ?_
  cases returns with
  | nil => exact atomic_fail _
  | cons target rest => exact (atomic_modify _).before_total fun _ _ _ => nofun

end Stacks

namespace Machine

theorem atomic_setValueAt (o : Offset) (value : Byte) : Atomic (setValueAt o value) :=
  (Bank.atomic_write o value).within fun _ => rfl

/-- Only the first part of a return can fail, and what follows it never does. -/
theorem atomic_returnFromCall : Atomic returnFromCall :=
  (Stacks.atomic_popReturn.within fun _ => rfl).before_total fun _ _ _ => nofun

end Machine

/-! ## 3. Connectives and tables -/

/-- **No connective fails half way**, on whatever offsets it is run. -/
theorem Connective.atomic_handler (k : Connective) (dst src : Offset) :
    Atomic (k.handler dst src) := by
  intro m fault failed
  cases out : (k.inspected dst src).find? (fun o => ¬ m.memory.Contains o) with
  | some o => rw [k.handler_of_outside out]
  | none =>
    have cells : ∀ o ∈ k.inspected dst src, m.memory.Contains o := by simpa using out
    by_cases locked : dst ∈ m.memory.locks
    · rw [k.handler_of_locked cells locked]
    · rw [k.handler_of_free cells locked] at failed
      cases failed

namespace Table

/-- Dispatching is atomic where the handler is: nothing before the handler changes the machine. -/
theorem atomic_dispatch {t : Table} {opcode : Opcode} {first second : Offset}
    (h : ∀ entry, t.find? opcode = some entry → Atomic (entry.handler first second)) :
    Atomic (t.dispatch opcode first second) := by
  cases he : t.find? opcode with
  | none =>
    rw [dispatch, he]
    exact atomic_fail _
  | some entry =>
    rw [dispatch, he]
    exact .after_keeping (keeps_emit id _) fun _ =>
      .after_keeping (keeps_check id entry.arity first second) fun _ => (h entry he).reporting _

theorem atomic_execute {t : Table} {c : Command}
    (h : ∀ entry, t.find? c.opcode = some entry →
      ∀ first second, Atomic (entry.handler first second)) :
    Atomic (t.execute c) := by
  cases he : t.find? c.opcode with
  | none =>
    rw [execute, he]
    exact atomic_fail _
  | some entry =>
    rw [execute, he]
    exact .after_keeping (keeps_query id _) fun found =>
      atomic_dispatch fun entry he => h entry he found.1 found.2

theorem atomic_execute_core (c : Command) : Atomic (core.execute c) :=
  atomic_execute fun entry he first second => by
    obtain ⟨k, _, rfl⟩ := exists_connective he
    exact k.atomic_handler first second

theorem atomic_registerWith (opcode : Opcode) (arity : Arity) (handler : Handler) :
    Atomic (registerWith opcode arity handler) := by
  intro t fault failed
  cases h : t.find? opcode with
  | some old => rw [registerWith_of_some h]
  | none =>
    rw [registerWith_of_none h] at failed
    cases failed

theorem atomic_name (opcode : Opcode) (mnemonic : String) : Atomic (name opcode mnemonic) := by
  intro t fault failed
  cases h : t.find? opcode with
  | none => rw [name_of_none h]
  | some entry =>
    cases hn : t.names.insert? mnemonic opcode with
    | none => rw [name_of_clash h hn]
    | some names =>
      rw [name_of_free h hn] at failed
      cases failed

end Table

/-! ## 4. The whole library -/

/-- **Every operation that fails leaves what it acts on as it was**: writing, locking and unlocking
    cells; storing and returning by a machine; writing registers; taking from the stacks; every
    connective on any two offsets; dispatching and executing wherever the opcode has the handler
    of a connective, with whatever arity; registering and naming; adding a bank. -/
theorem failure_atomic :
    (∀ o value, Atomic (Bank.write o value)) ∧
    (∀ o bytes, Atomic (Bank.writeSlice o bytes)) ∧
    (∀ o, Atomic (Bank.lock o)) ∧
    (∀ o, Atomic (Bank.unlock o)) ∧
    (∀ o value, Atomic (Machine.setValueAt o value)) ∧
    Atomic Machine.returnFromCall ∧
    (∀ r value, Atomic (RegisterFile.write r value)) ∧
    (∀ index value, Atomic (RegisterFile.writeIndexed index value)) ∧
    Atomic Stacks.popOperand ∧
    Atomic Stacks.popReturn ∧
    (∀ (k : Connective) dst src, Atomic (k.handler dst src)) ∧
    (∀ (t : Table) opcode (k : Connective) arity, t.find? opcode = some ⟨k.handler, arity⟩ →
      (∀ first second, Atomic (t.dispatch opcode first second)) ∧
      ∀ first second, Atomic (t.execute ⟨opcode, first, second⟩)) ∧
    (∀ opcode handler, Atomic (Table.register opcode handler)) ∧
    (∀ opcode arity handler, Atomic (Table.registerWith opcode arity handler)) ∧
    (∀ opcode mnemonic, Atomic (Table.name opcode mnemonic)) ∧
    ∀ id bank, Atomic (Registry.insert id bank) := by
  refine ⟨Bank.atomic_write, Bank.atomic_writeSlice, Bank.atomic_lock, Bank.atomic_unlock,
    Machine.atomic_setValueAt, Machine.atomic_returnFromCall, RegisterFile.atomic_write,
    RegisterFile.atomic_writeIndexed, Stacks.atomic_popOperand, Stacks.atomic_popReturn,
    Connective.atomic_handler, fun t opcode k arity found => ?_,
    fun opcode => Table.atomic_registerWith opcode .binary, Table.atomic_registerWith,
    Table.atomic_name, Registry.atomic_insert⟩
  have handlers : ∀ entry, t.find? opcode = some entry →
      ∀ dst src, Atomic (entry.handler dst src) := by
    intro entry he dst src
    rw [found, Option.some.injEq] at he
    rw [← he]
    exact k.atomic_handler dst src
  exact ⟨fun first second => Table.atomic_dispatch fun entry he => handlers entry he first second,
    fun first second => Table.atomic_execute handlers⟩

/-- It holds of `imp` registered as if it read the destination only: dispatching then does not
    look the source up, here an offset that names no cell. -/
theorem failure_atomic_unary_imp :
    let t := Table.empty.set ⟨7, 1⟩ ⟨Connective.imp.handler, .unary⟩
    t.find? ⟨7, 1⟩ = some ⟨Connective.imp.handler, .unary⟩ ∧
      Atomic (t.dispatch ⟨7, 1⟩ 0 (-1)) := by
  intro t
  have found : t.find? ⟨7, 1⟩ = some ⟨Connective.imp.handler, .unary⟩ := by
    rw [Table.find?_set, if_pos rfl]
  obtain ⟨_, _, _, _, _, _, _, _, _, _, _, tables, _⟩ := failure_atomic
  exact ⟨found, (tables t ⟨7, 1⟩ .imp .unary found).1 0 (-1)⟩

end ByteMachine
