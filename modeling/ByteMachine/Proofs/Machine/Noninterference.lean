import ByteMachine.Instruction.MemoryOnly
import ByteMachine.Monitor.Request

/-!
# The parts of a machine do not disturb each other

A machine falls into four parts: the primary memory with its locks, the byte registers, control
(the instruction pointer and the return stack), and the operand stack. The instruction pointer is
stored with the byte registers and the return stack with the operands, so the parts do not follow
the fields of the machine.

* `Machine.Operation` lists what can be done to a machine; each operation is about one part
  (`Operation.component`).
* `Machine.Confined X a`: the action `a` looks at nothing but the part `X` and changes nothing but
  that part. It passes through every way of composing actions, and every operation is confined to
  its part (`Operation.confined`).

`noninterference`: in any sequence of operations those about one part give the results, and leave
that part, as if the others had not been there.
-/

namespace ByteMachine

/-! ## 1. Actions that depend on a view of the state -/

namespace Action

variable {σ τ α β : Type}

/-- What `view` shows of a state fixes the result, and what `view` shows afterwards. -/
def Local (view : σ → τ) (a : Action σ α) : Prop :=
  ∀ s t, view s = view t →
    (a.run s).result = (a.run t).result ∧ view (a.run s).state = view (a.run t).state

theorem local_pure (view : σ → τ) (x : α) : Local view (pure x : Action σ α) :=
  fun _ _ same => ⟨rfl, same⟩

theorem local_fail (view : σ → τ) (fault : Fault) : Local view (fail fault : Action σ α) :=
  fun _ _ same => ⟨rfl, same⟩

theorem local_emit (view : σ → τ) (event : Event) : Local view (emit event) :=
  fun _ _ same => ⟨rfl, same⟩

theorem local_query {view : σ → τ} {f : σ → Except Fault α}
    (h : ∀ s t, view s = view t → f s = f t) : Local view (query f) :=
  fun s t same => ⟨h s t same, same⟩

theorem local_modify {view : σ → τ} {f : σ → σ}
    (h : ∀ s t, view s = view t → view (f s) = view (f t)) : Local view (modify f) :=
  fun s t same => ⟨rfl, h s t same⟩

theorem Local.bind {view : σ → τ} {a : Action σ α} {f : α → Action σ β} (ha : Local view a)
    (hf : ∀ x, Local view (f x)) : Local view (a >>= f) := by
  intro s t same
  obtain ⟨result, state⟩ := ha s t same
  rcases hs : a.run s with ⟨fault | x, s', log⟩
  · rcases ht : a.run t with ⟨fault' | y, t', log'⟩
    · rw [hs, ht] at result state
      cases result
      rw [bind_of_error hs, bind_of_error ht]
      exact ⟨rfl, state⟩
    · rw [hs, ht] at result
      cases result
  · rcases ht : a.run t with ⟨fault' | y, t', log'⟩
    · rw [hs, ht] at result
      cases result
    · rw [hs, ht] at result state
      cases result
      rw [bind_of_ok hs, bind_of_ok ht]
      exact hf x s' t' state

end Action

/-! ## 2. Registers and stacks -/

namespace RegisterFile

open ByteMachine.Action

theorem read_congr {f g : RegisterFile} (same : f.bytes = g.bytes) (r : Register) :
    f.read r = g.read r := by
  unfold read
  rw [same]

theorem readIndexed_congr {f g : RegisterFile} (same : f.bytes = g.bytes) (index : UInt8) :
    f.readIndexed index = g.readIndexed index := by
  unfold readIndexed
  simp only [read_congr same]

theorem local_write (r : Register) (value : Byte) : Local bytes (write r value) :=
  (local_query fun _ _ _ => rfl).bind fun i => local_modify fun f g same => by
    show f.bytes.set i value = g.bytes.set i value
    rw [same]

theorem keeps_ip_write (r : Register) (value : Byte) : Keeps ip (write r value) :=
  (keeps_query ip _).bind fun _ _ => rfl

theorem local_advance : Local ip (.modify advance) := local_modify fun f g same => by
  show f.ip + 1 = g.ip + 1
  rw [same]

end RegisterFile

namespace Stacks

open ByteMachine.Action

theorem local_pushOperand (value : Byte) : Local operands (.modify (·.pushOperand value)) :=
  local_modify fun s t same => by
    show value :: s.operands = value :: t.operands
    rw [same]

theorem local_pushReturn (target : InstructionAddress) :
    Local returns (.modify (·.pushReturn target)) :=
  local_modify fun s t same => by
    show target :: s.returns = target :: t.returns
    rw [same]

theorem local_popOperand : Local operands popOperand := by
  refine (local_query fun s t same => congrArg Except.ok same).bind fun entries => ?_
  cases entries with
  | nil => exact local_fail operands _
  | cons value rest => exact (local_modify fun _ _ _ => rfl).bind fun _ => local_pure operands value

theorem local_popReturn : Local returns popReturn := by
  refine (local_query fun s t same => congrArg Except.ok same).bind fun entries => ?_
  cases entries with
  | nil => exact local_fail returns _
  | cons target rest => exact (local_modify fun _ _ _ => rfl).bind fun _ => local_pure returns target

theorem keeps_returns_popOperand : Keeps returns popOperand := by
  refine (keeps_query returns _).bind fun entries => ?_
  cases entries <;> exact fun _ => rfl

theorem keeps_operands_popReturn : Keeps operands popReturn := by
  refine (keeps_query operands _).bind fun entries => ?_
  cases entries <;> exact fun _ => rfl

end Stacks

namespace Machine

open ByteMachine.Action

/-! ## 3. The parts of a machine -/

/-- The parts that do not disturb each other. -/
inductive Component where
  /-- The primary memory with its locks. -/
  | memory
  /-- The byte registers. -/
  | registers
  /-- The instruction pointer and the return stack. -/
  | control
  /-- The operand stack. -/
  | operands
  deriving DecidableEq, Repr

/-- What a part holds. The memory is shown with the number that it answers to. -/
def Component.Content : Component → Type
  | .memory => BankId × Bank
  | .registers => Vector Byte Register.bytes.length
  | .control => InstructionAddress × List InstructionAddress
  | .operands => List Byte

/-- What a part of the machine holds. -/
def part : (X : Component) → Machine → X.Content
  | .memory, m => (m.bankId, m.memory)
  | .registers, m => m.registers.bytes
  | .control, m => (m.ip, m.stack.returns)
  | .operands, m => m.stack.operands

/-- The action looks at one part of the machine only, and changes no other. -/
structure Confined {α : Type} (X : Component) (a : Action Machine α) : Prop where
  own : Local (part X) a
  others : ∀ Y, Y ≠ X → Keeps (part Y) a

section Confined

variable {α β : Type} {X : Component}

theorem confined_pure (x : α) : Confined X (pure x : Action Machine α) :=
  ⟨local_pure _ x, fun _ _ => keeps_pure _ x⟩

theorem confined_emit (event : Event) : Confined X (.emit event) :=
  ⟨local_emit _ event, fun _ _ => keeps_emit _ event⟩

theorem confined_query {f : Machine → Except Fault α}
    (h : ∀ m n, part X m = part X n → f m = f n) : Confined X (.query f) :=
  ⟨local_query h, fun _ _ => keeps_query _ f⟩

theorem Confined.bind {a : Action Machine α} {f : α → Action Machine β} (ha : Confined X a)
    (hf : ∀ x, Confined X (f x)) : Confined X (a >>= f) :=
  ⟨ha.own.bind fun x => (hf x).own, fun Y other => (ha.others Y other).bind fun x =>
    (hf x).others Y other⟩

/-- What works on the memory alone is confined to it. -/
theorem MemoryOnly.confined {a : Action Machine α} (h : MemoryOnly a) : Confined .memory a := by
  constructor
  · rintro ⟨bankId, memory, registers, stack⟩ ⟨bankId', memory', registers', stack'⟩ same
    obtain ⟨rfl, rfl⟩ := Prod.mk.inj same
    obtain ⟨result, after, log, run⟩ := h bankId memory
    rw [run registers stack, run registers' stack']
    exact ⟨rfl, rfl⟩
  · intro Y other m
    have kept : (a.run m).state.registers = m.registers := h.keeps_registers m
    have kept' : (a.run m).state.stack = m.stack := h.keeps_stack m
    cases Y with
    | memory => exact absurd rfl other
    | registers => exact congrArg RegisterFile.bytes kept
    | control =>
      show ((a.run m).state.registers.ip, (a.run m).state.stack.returns) = _
      rw [kept, kept']
      rfl
    | operands => exact congrArg Stacks.operands kept'

theorem confined_onRegisters {a : Action RegisterFile α} (own : Local RegisterFile.bytes a)
    (kept : Keeps RegisterFile.ip a) : Confined .registers (onRegisters a) := by
  refine ⟨fun m n same => own m.registers n.registers same, fun Y other m => ?_⟩
  cases Y with
  | registers => exact absurd rfl other
  | memory | operands => rfl
  | control =>
    show ((a.run m.registers).state.ip, m.stack.returns) = _
    rw [kept m.registers]
    rfl

/-- Moving the instruction pointer is a matter of control, though it is kept with the registers. -/
theorem confined_onRegisters_ip {a : Action RegisterFile α} (own : Local RegisterFile.ip a)
    (kept : Keeps RegisterFile.bytes a) : Confined .control (onRegisters a) := by
  refine ⟨fun m n same => ?_, fun Y other m => ?_⟩
  · obtain ⟨ip, returns⟩ := Prod.mk.inj same
    obtain ⟨result, state⟩ := own m.registers n.registers ip
    exact ⟨result, Prod.ext state returns⟩
  · cases Y with
    | control => exact absurd rfl other
    | memory | operands => rfl
    | registers => exact kept m.registers

theorem confined_onStacks {a : Action Stacks α} (own : Local Stacks.operands a)
    (kept : Keeps Stacks.returns a) : Confined .operands (onStacks a) := by
  refine ⟨fun m n same => own m.stack n.stack same, fun Y other m => ?_⟩
  cases Y with
  | operands => exact absurd rfl other
  | memory | registers => rfl
  | control =>
    show (m.ip, (a.run m.stack).state.returns) = _
    rw [kept m.stack]
    rfl

/-- The return stack is a matter of control, though it is kept with the operands. -/
theorem confined_onStacks_returns {a : Action Stacks α} (own : Local Stacks.returns a)
    (kept : Keeps Stacks.operands a) : Confined .control (onStacks a) := by
  refine ⟨fun m n same => ?_, fun Y other m => ?_⟩
  · obtain ⟨ip, returns⟩ := Prod.mk.inj same
    obtain ⟨result, state⟩ := own m.stack n.stack returns
    exact ⟨result, Prod.ext ip state⟩
  · cases Y with
    | control => exact absurd rfl other
    | memory | registers => rfl
    | operands => exact kept m.stack

end Confined

/-! ## 4. Requests -/

/-- The part that a request is about. -/
def Request.component : Machine.Request → Component
  | .memory _ => .memory
  | .registers (.read _) | .registers (.write ..) => .registers
  | .registers (.readIndexed _) | .registers (.writeIndexed ..) => .registers
  | .registers .ip | .registers (.jump _) | .registers .advance => .control
  | .stack (.pushOperand _) | .stack .popOperand => .operands
  | .stack (.pushReturn _) | .stack .popReturn => .control
  | .ip | .jump _ | .advance | .call _ | .ret => .control

theorem confined_view_ip : Confined .control (.view ip) :=
  confined_query fun _ _ same => congrArg Except.ok (Prod.mk.inj same).1

theorem confined_moveTo (target : InstructionAddress) : Confined .control (moveTo target) :=
  confined_onRegisters_ip (local_modify fun _ _ _ => rfl) fun _ => rfl

theorem confined_jump (target : InstructionAddress) : Confined .control (jump target) :=
  confined_view_ip.bind fun _ => (confined_emit _).bind fun _ => confined_moveTo target

theorem confined_advance : Confined .control advance :=
  confined_onRegisters_ip RegisterFile.local_advance fun _ => rfl

theorem confined_callTo (target : InstructionAddress) : Confined .control (callTo target) :=
  confined_view_ip.bind fun here => (confined_emit _).bind fun _ =>
    (confined_onStacks_returns (Stacks.local_pushReturn here) fun _ => rfl).bind fun _ =>
      confined_moveTo target

theorem confined_returnFromCall : Confined .control returnFromCall :=
  (confined_onStacks_returns Stacks.local_popReturn Stacks.keeps_operands_popReturn).bind
    fun target => confined_view_ip.bind fun _ => (confined_emit _).bind fun _ =>
      confined_moveTo target

theorem confined_serve_registers (request : RegisterFile.Request) :
    Confined (Request.component (.registers request)) (serve (.registers request)) := by
  cases request with
  | read r =>
    refine confined_onRegisters (local_query fun f g same => ?_) (keeps_query _ _)
    rw [RegisterFile.read_congr same]
  | write r value =>
    exact confined_onRegisters
      ((RegisterFile.local_write r value).bind fun _ => local_pure _ _)
      ((RegisterFile.keeps_ip_write r value).bind fun _ => keeps_pure _ _)
  | readIndexed index =>
    refine confined_onRegisters (local_query fun f g same => ?_) (keeps_query _ _)
    rw [RegisterFile.readIndexed_congr same]
  | writeIndexed index value =>
    exact confined_onRegisters
      (((local_query fun _ _ _ => rfl).bind fun r => RegisterFile.local_write r value).bind
        fun _ => local_pure _ _)
      (((keeps_query _ _).bind fun r => RegisterFile.keeps_ip_write r value).bind
        fun _ => keeps_pure _ _)
  | ip =>
    exact confined_onRegisters_ip
      (local_query fun _ _ same => congrArg (fun ip => Except.ok (Answer.word ip)) same)
      (keeps_query _ _)
  | jump target =>
    exact confined_onRegisters_ip
      ((local_modify fun _ _ _ => rfl).bind fun _ => local_pure _ _) fun _ => rfl
  | advance =>
    exact confined_onRegisters_ip (RegisterFile.local_advance.bind fun _ => local_pure _ _)
      fun _ => rfl

theorem confined_serve_stack (request : Stacks.Request) :
    Confined (Request.component (.stack request)) (serve (.stack request)) := by
  cases request with
  | pushOperand value =>
    exact confined_onStacks ((Stacks.local_pushOperand value).bind fun _ => local_pure _ _)
      fun _ => rfl
  | popOperand =>
    exact confined_onStacks (Stacks.local_popOperand.bind fun _ => local_pure _ _)
      (Stacks.keeps_returns_popOperand.bind fun _ => keeps_pure _ _)
  | pushReturn target =>
    exact confined_onStacks_returns ((Stacks.local_pushReturn target).bind fun _ => local_pure _ _)
      fun _ => rfl
  | popReturn =>
    exact confined_onStacks_returns (Stacks.local_popReturn.bind fun _ => local_pure _ _)
      (Stacks.keeps_operands_popReturn.bind fun _ => keeps_pure _ _)

/-- **Every request is confined to the part that it is about.** -/
theorem Request.confined (request : Machine.Request) :
    Confined request.component (serve request) := by
  cases request with
  | memory request => exact (memoryOnly_onMemory _).confined
  | registers request => exact confined_serve_registers request
  | stack request => exact confined_serve_stack request
  | ip =>
    exact confined_query fun _ _ same =>
      congrArg (fun ip => Except.ok (Answer.word ip)) (Prod.mk.inj same).1
  | jump target => exact (confined_jump target).bind fun _ => confined_pure _
  | advance => exact confined_advance.bind fun _ => confined_pure _
  | call target => exact (confined_callTo target).bind fun _ => confined_pure _
  | ret => exact confined_returnFromCall.bind fun _ => confined_pure _

/-! ## 5. Operations -/

/-- What can be done to a machine. -/
inductive Operation where
  /-- Ask something of a part. -/
  | ask (request : Machine.Request)
  /-- Read a cell of the primary memory. -/
  | valueAt (o : Offset)
  /-- Write a cell of the primary memory. -/
  | setValueAt (o : Offset) (value : Byte)
  /-- Read the cell of an address, through the banks that the machine knows. -/
  | readAt (a : Address)
  /-- Find the cell that an operand names. -/
  | locate (x : Operand)
  /-- Find the byte that an operand stands for, through the banks that the machine knows. -/
  | evaluate (x : Operand)
  /-- Find the cells that the operands of a command name. -/
  | resolve (c : Command)
  /-- Run a connective on two offsets. -/
  | handle (k : Connective) (dst src : Offset)
  /-- Dispatch by the table of the core plugin. -/
  | dispatch (opcode : Opcode) (first second : Offset)
  /-- Execute a command by the table of the core plugin. -/
  | execute (c : Command)

/-- Machines with the same memory know the same banks. -/
theorem bank?_congr {m n : Machine} (same : part .memory m = part .memory n) :
    m.bank? = n.bank? := by
  obtain ⟨bankId, memory⟩ := Prod.mk.inj same
  unfold bank?
  rw [bankId, memory]

theorem resolve_congr {m n : Machine} (same : part .memory m = part .memory n) (x : Operand) :
    x.resolve m = x.resolve n := by
  obtain ⟨bankId, memory⟩ := Prod.mk.inj same
  cases x with
  | immediate value => rfl
  | address target => simp only [Operand.resolve, bankId, memory]

namespace Operation

/-- The part that an operation is about. -/
def component : Operation → Component
  | .ask request => request.component
  | .valueAt _ | .setValueAt .. | .readAt _ | .locate _ | .evaluate _ | .resolve _ => .memory
  | .handle .. | .dispatch .. | .execute _ => .memory

/-- An action whose result is given back as a reply. -/
def replying {α : Type} (a : Action Machine α) (reply : α → Monitor.Reply) :
    Action Machine Monitor.Reply := do
  let x ← a
  return reply x

/-- What an operation does and gives back. -/
def act : Operation → Action Machine Monitor.Reply
  | .ask request => replying (serve request) .answer
  | .valueAt o => replying (Machine.valueAt o) fun value => .answer (.byte value)
  | .setValueAt o value => replying (Machine.setValueAt o value) fun _ => .answer .done
  | .readAt a => replying (.query fun m => m.bank?.readAt a) fun value => .answer (.byte value)
  | .locate x => replying (.query x.resolve) fun o => .answer (.word o)
  | .evaluate x => replying (.query fun m => x.value m.bank?) fun value => .answer (.byte value)
  | .resolve c => replying (.query fun m => c.resolve m) fun cells => .cells cells.1 cells.2
  | .handle k dst src => replying (k.handler dst src) fun _ => .answer .done
  | .dispatch opcode first second =>
    replying (Table.core.dispatch opcode first second) fun _ => .answer .done
  | .execute c => replying (Table.core.execute c) fun _ => .answer .done

theorem confined_replying {α : Type} {X : Component} {a : Action Machine α} (h : Confined X a)
    (reply : α → Monitor.Reply) : Confined X (replying a reply) :=
  h.bind fun x => confined_pure (reply x)

/-- **Every operation is confined to the part that it is about.** -/
theorem confined (op : Operation) : Confined op.component op.act := by
  cases op with
  | ask request => exact confined_replying request.confined _
  | valueAt o => exact confined_replying (memoryOnly_onMemory _).confined _
  | setValueAt o value => exact confined_replying (memoryOnly_onMemory _).confined _
  | readAt a =>
    refine confined_replying (confined_query fun m n same => ?_) _
    rw [bank?_congr same]
  | locate x => exact confined_replying (confined_query fun m n same => resolve_congr same x) _
  | evaluate x =>
    refine confined_replying (confined_query fun m n same => ?_) _
    rw [bank?_congr same]
  | resolve c =>
    refine confined_replying (confined_query fun m n same => ?_) _
    unfold Command.resolve
    rw [resolve_congr same, resolve_congr same]
  | handle k dst src => exact confined_replying (k.memoryOnly_handler dst src).confined _
  | dispatch opcode first second =>
    exact confined_replying (Table.memoryOnly_dispatch_core opcode first second).confined _
  | execute c => exact confined_replying (Table.memoryOnly_execute_core c).confined _

end Operation

/-! ## 6. Sequences of operations -/

/-- The machine after some operations, each of which may succeed or fail. -/
def carryOut (m : Machine) (ops : List Operation) : Machine :=
  ops.foldl (fun m op => (op.act.run m).state) m

/-- Each of some operations with its result, in order. -/
def transcript : Machine → List Operation → List (Operation × Except Fault Monitor.Reply)
  | _, [] => []
  | m, op :: ops => (op, (op.act.run m).result) :: (op.act.run m).state.transcript ops

/-- Two machines with the same part go through the operations about it in the same way, whether
    or not other operations come in between. -/
theorem parts_agree {X : Component} {m n : Machine} (same : part X m = part X n)
    (ops : List Operation) :
    (m.transcript ops).filter (fun entry => entry.1.component = X) =
      n.transcript (ops.filter fun op => op.component = X) ∧
    part X (m.carryOut ops) = part X (n.carryOut (ops.filter fun op => op.component = X)) := by
  induction ops generalizing m n with
  | nil => exact ⟨rfl, same⟩
  | cons op ops ih =>
    by_cases own : op.component = X
    · -- Both machines carry the operation out, and it sees the same part in both.
      subst own
      obtain ⟨result, state⟩ := op.confined.own m n same
      obtain ⟨later, final⟩ := ih state
      rw [List.filter_cons_of_pos (by simp), transcript, transcript,
        List.filter_cons_of_pos (by simp), later, result]
      exact ⟨rfl, final⟩
    · -- Only the first machine carries it out, and it leaves the part alone.
      have kept : part X (op.act.run m).state = part X m :=
        op.confined.others X (fun e => own e.symm) m
      obtain ⟨later, final⟩ := ih (kept.trans same)
      rw [List.filter_cons_of_neg (by simpa using own), transcript,
        List.filter_cons_of_neg (by simpa using own)]
      exact ⟨later, final⟩

/-- **The parts of a machine do not disturb each other.** In any sequence of operations on any
    machine, those about one part give the results that they give when they are carried out
    alone, and leave that part as they leave it alone. -/
theorem noninterference (X : Component) (m : Machine) (ops : List Operation) :
    (m.transcript ops).filter (fun entry => entry.1.component = X) =
      m.transcript (ops.filter fun op => op.component = X) ∧
    part X (m.carryOut ops) = part X (m.carryOut (ops.filter fun op => op.component = X)) :=
  parts_agree rfl ops

end Machine

end ByteMachine
