import ByteMachine.Proofs.Instruction.CoreExecution
import ByteMachine.Proofs.Machine.Script

/-!
# What is logged while commands run

Only two lines of the log belong to dispatching: one before the cells are looked up, and one after
a handler that has failed. Everything else in the log comes from the handler.

* `Table.TracesDispatch`: the lines of one dispatch, for any table and any handlers. A missing cell
  is reported as a fault but not logged (`traces_dispatch`).
* `Command.Says`: the lines of one command of the core plugin. Resolving the operands finds every
  cell that dispatching looks up again, and the connectives log nothing themselves and fail for a
  lock only; so a command says nothing, or one line, or two lines if it was refused for a lock
  (`Command.says_execute`).
* `Command.executeEach` executes commands one after another, whether or not they succeed;
  `messages_executeEach`: its log is that of the single commands, in order.

`log_traces_commands` puts these together.
-/

namespace ByteMachine

open Text

/-- The lines of the log without their levels. -/
def Outcome.messages {σ α : Type} (out : Outcome σ α) : List String := out.log.map Event.text

/-- The line before the cells of a handler are looked up. -/
def dispatchLine (mnemonic : Option String) (first second : Offset) : String :=
  "dispatch " ++ mnemonic.getD "?" ++ "(" ++ decimal first.toInt ++ ", " ++ decimal second.toInt ++
    ")"

/-- The line after a handler that has failed. -/
def failureLine (opcode : Opcode) (fault : Fault) : String :=
  "command " ++ opcode.text ++ " failed: " ++ fault.message

/-! ## 1. One dispatch -/

namespace Table

/-- What is logged when an opcode is dispatched on two offsets. -/
structure TracesDispatch (t : Table) (opcode : Opcode) (first second : Offset) (m : Machine) :
    Prop where
  /-- Nothing, if no handler stands behind the opcode. -/
  unknown : t.find? opcode = none → ((t.dispatch opcode first second).run m).messages = []
  /-- One line, if an offset that is looked up names no cell; the fault is not logged. -/
  outside : ∀ entry, t.find? opcode = some entry →
    (∃ o ∈ inspected entry.arity first second, o < 0 ∨ m.memory.size ≤ o) →
    (∃ o ∈ inspected entry.arity first second,
      ((t.dispatch opcode first second).run m).result = .error (.outOfRange o m.memory.size)) ∧
      ((t.dispatch opcode first second).run m).messages =
        [dispatchLine (t.mnemonic? opcode) first second]
  /-- That line and the handler's own, if the handler succeeds. -/
  succeeded : ∀ entry, t.find? opcode = some entry →
    (∀ o ∈ inspected entry.arity first second, 0 ≤ o ∧ o < m.memory.size) →
    ((entry.handler first second).run m).result = .ok () →
    ((t.dispatch opcode first second).run m).messages =
      dispatchLine (t.mnemonic? opcode) first second :: ((entry.handler first second).run m).messages
  /-- And one more behind these, if the handler fails. -/
  failed : ∀ entry, t.find? opcode = some entry →
    (∀ o ∈ inspected entry.arity first second, 0 ≤ o ∧ o < m.memory.size) →
    ∀ fault, ((entry.handler first second).run m).result = .error fault →
    ((t.dispatch opcode first second).run m).messages =
      dispatchLine (t.mnemonic? opcode) first second ::
        ((entry.handler first second).run m).messages ++ [failureLine opcode fault]

section Dispatch

variable {t : Table} {opcode : Opcode} {entry : Entry} {first second : Offset} {m : Machine}

theorem messages_of_ok (h : t.find? opcode = some entry)
    (cells : ∀ o ∈ inspected entry.arity first second, m.memory.Contains o)
    (ok : ((entry.handler first second).run m).result = .ok ()) :
    ((t.dispatch opcode first second).run m).messages =
      dispatchLine (t.mnemonic? opcode) first second ::
        ((entry.handler first second).run m).messages := by
  rcases ran : (entry.handler first second).run m with ⟨fault | done, after, log⟩
  · rw [ran] at ok
    cases ok
  · rw [dispatch_of_cells h cells, Action.reporting_of_ok ran]
    rfl

theorem messages_of_error (h : t.find? opcode = some entry)
    (cells : ∀ o ∈ inspected entry.arity first second, m.memory.Contains o) {fault : Fault}
    (error : ((entry.handler first second).run m).result = .error fault) :
    ((t.dispatch opcode first second).run m).messages =
      dispatchLine (t.mnemonic? opcode) first second ::
        ((entry.handler first second).run m).messages ++ [failureLine opcode fault] := by
  rcases ran : (entry.handler first second).run m with ⟨cause | done, after, log⟩
  · rw [ran] at error
    cases error
    rw [dispatch_of_cells h cells, Action.reporting_of_error ran]
    simp only [Outcome.messages, List.map_cons, List.map_append]
    rfl
  · rw [ran] at error
    cases error

/-- **What dispatching logs**, for any table, opcode, offsets and machine. -/
theorem traces_dispatch (t : Table) (opcode : Opcode) (first second : Offset) (m : Machine) :
    t.TracesDispatch opcode first second m where
  unknown missing := by rw [dispatch_of_none missing]; rfl
  outside entry h := by
    rintro ⟨o, looked, out⟩
    have some_outside : ((inspected entry.arity first second).find?
        (fun o => ¬ m.memory.Contains o)).isSome := by
      rw [List.find?_isSome]
      exact ⟨o, looked, by simpa using Bank.not_contains_iff.mpr out⟩
    obtain ⟨p, found⟩ := Option.isSome_iff_exists.mp some_outside
    rw [dispatch_of_outside h found]
    exact ⟨⟨p, List.mem_of_find?_eq_some found, rfl⟩, rfl⟩
  succeeded entry h inside ok :=
    messages_of_ok h (fun o ho => Bank.contains_iff.mpr (inside o ho)) ok
  failed entry h inside fault error :=
    messages_of_error h (fun o ho => Bank.contains_iff.mpr (inside o ho)) error

end Dispatch

theorem mnemonic?_core (k : Connective) : core.mnemonic? k.opcode = some k.mnemonic := by
  cases k <;> rfl

end Table

/-! ## 2. One command -/

namespace Command

/-- What executing a command of the core plugin logs. -/
inductive Says (m : Machine) (c : Command) : List String → Prop where
  /-- Nothing, if its opcode is unknown or an operand that it needs names no cell. It is refused
      then, but not for a lock. -/
  | nothing {fault : Fault} (none : ¬ ∃ k dst src, c.Selects m k dst src)
      (refused : ((Table.core.execute c).run m).result = .error fault)
      (unlocked : ∀ o, fault ≠ .cellLocked o) : Says m c []
  /-- One line with the name of the connective and the cells that it works on. -/
  | once {k : Connective} {dst src : Offset} (selects : c.Selects m k dst src)
      (inside : (0 ≤ dst ∧ dst < m.memory.size) ∧ 0 ≤ src ∧ src < m.memory.size)
      (granted : ((Table.core.execute c).run m).result = .ok ()) :
      Says m c [dispatchLine (some k.mnemonic) dst src]
  /-- A second line, if the destination is locked. -/
  | twice {k : Connective} {dst src : Offset} (selects : c.Selects m k dst src)
      (inside : (0 ≤ dst ∧ dst < m.memory.size) ∧ 0 ≤ src ∧ src < m.memory.size)
      (refused : ((Table.core.execute c).run m).result = .error (.cellLocked dst)) :
      Says m c [dispatchLine (some k.mnemonic) dst src, failureLine c.opcode (.cellLocked dst)]

section Says

variable {m : Machine} {c : Command} {k : Connective} {dst src : Offset} {fault : Fault}

theorem Selects.opcode_eq (h : c.Selects m k dst src) : c.opcode = k.opcode := by
  cases h with
  | unary invokes _ => exact invokes.opcode_eq
  | binary invokes _ _ _ => exact invokes.opcode_eq

theorem Selects.run_eq_dispatch (h : c.Selects m k dst src) :
    (Table.core.execute c).run m = (Table.core.dispatch c.opcode dst src).run m ∧
      ∀ o ∈ Table.inspected k.entry.arity dst src, m.memory.Contains o := by
  obtain ⟨found, cells⟩ := h.dispatched
  exact ⟨Table.execute_of_resolved found cells, Table.contains_of_cells cells⟩

theorem Selects.mnemonic? (h : c.Selects m k dst src) :
    Table.core.mnemonic? c.opcode = some k.mnemonic := by
  rw [h.opcode_eq, Table.mnemonic?_core]

/-- A connective logs nothing itself, so a command that is granted says one line. -/
theorem Selects.messages_of_free (h : c.Selects m k dst src) (free : dst ∉ m.memory.locks) :
    ((Table.core.execute c).run m).messages = [dispatchLine (some k.mnemonic) dst src] := by
  obtain ⟨dispatched, cells⟩ := h.run_eq_dispatch
  have ran := k.handler_of_free h.inspected free
  rw [dispatched, Table.messages_of_ok h.dispatched.1 cells (congrArg Outcome.result ran),
    h.mnemonic?, show (k.entry.handler dst src).run m = _ from ran]
  rfl

/-- One that is refused for a lock says one more. -/
theorem Selects.messages_of_locked (h : c.Selects m k dst src) (locked : dst ∈ m.memory.locks) :
    ((Table.core.execute c).run m).messages =
      [dispatchLine (some k.mnemonic) dst src, failureLine c.opcode (.cellLocked dst)] := by
  obtain ⟨dispatched, cells⟩ := h.run_eq_dispatch
  have ran := k.handler_of_locked h.inspected locked
  rw [dispatched, Table.messages_of_error h.dispatched.1 cells (congrArg Outcome.result ran),
    h.mnemonic?, show (k.entry.handler dst src).run m = _ from ran]
  rfl

theorem Selects.inside (h : c.Selects m k dst src) :
    (0 ≤ dst ∧ dst < m.memory.size) ∧ 0 ≤ src ∧ src < m.memory.size :=
  ⟨Bank.contains_iff.mp h.contains.1, Bank.contains_iff.mp h.contains.2⟩

/-- **What one command says.** -/
theorem says_execute (m : Machine) (c : Command) :
    c.Says m ((Table.core.execute c).run m).messages := by
  by_cases selected : ∃ k dst src, c.Selects m k dst src
  · obtain ⟨k, dst, src, selects⟩ := selected
    by_cases locked : dst ∈ m.memory.locks
    · rw [selects.messages_of_locked locked]
      exact .twice selects selects.inside (Refused.locked selects locked).execute.1
    · rw [selects.messages_of_free locked]
      exact .once selects selects.inside (selects.execute_of_free locked).1
  · rcases c.refused_or_selects m with ⟨fault, refused⟩ | ⟨k, dst, src, selects, _⟩
    · rcases refused.locked_or_silent with ⟨k, dst, src, selects, _, _⟩ | ⟨unlocked, silent⟩
      · exact absurd ⟨k, dst, src, selects⟩ selected
      · have refused : ((Table.core.execute c).run m).result = .error fault := by rw [silent]
        rw [silent]
        exact .nothing selected refused unlocked
    · exact absurd ⟨k, dst, src, selects⟩ selected

end Says

/-! ## 3. Commands one after another -/

/-- Executes commands of the core plugin one after another, whether or not they succeed. -/
def executeEach : List Command → Action Machine Unit
  | [] => pure ()
  | c :: cs => do
    let _ ← .attempt (Table.core.execute c)
    executeEach cs

/-- The machine that each command finds when they are executed one after another. -/
def turns : Machine → List Command → List (Machine × Command)
  | _, [] => []
  | m, c :: cs => (m, c) :: turns ((Table.core.execute c).run m).state cs

theorem map_snd_turns (m : Machine) (cs : List Command) : (turns m cs).map Prod.snd = cs := by
  induction cs generalizing m with
  | nil => rfl
  | cons c cs ih => rw [turns, List.map_cons, ih]

theorem messages_executeEach (m : Machine) (cs : List Command) :
    ((executeEach cs).run m).messages =
      (turns m cs).flatMap fun turn => ((Table.core.execute turn.2).run turn.1).messages := by
  induction cs generalizing m with
  | nil => rfl
  | cons c cs ih =>
    rw [turns, List.flatMap_cons, ← ih, executeEach,
      Action.bind_of_ok (Action.run_attempt (Table.core.execute c) m)]
    exact List.map_append

/-- What is logged while commands are executed one after another. -/
structure TracesRun (m : Machine) (cs : List Command) : Prop where
  /-- The log is put together from what the commands log, each in its turn. -/
  whole : ((executeEach cs).run m).messages =
    (turns m cs).flatMap fun turn => ((Table.core.execute turn.2).run turn.1).messages
  /-- Every command has its turn, in order. -/
  order : (turns m cs).map Prod.snd = cs
  /-- In its turn, each command says one line if its cells are found, and a second one exactly
      if it is refused for a lock. -/
  each : ∀ turn ∈ turns m cs,
    turn.2.Says turn.1 ((Table.core.execute turn.2).run turn.1).messages

end Command

/-! ## 4. The whole log -/

/-- **The log traces the commands**: one dispatch of any table, and any number of commands executed
    one after another by that of the core plugin. -/
theorem log_traces_commands :
    (∀ (t : Table) (opcode : Opcode) (first second : Offset) (m : Machine),
      t.TracesDispatch opcode first second m) ∧
    ∀ (m : Machine) (cs : List Command), Command.TracesRun m cs :=
  ⟨Table.traces_dispatch, fun m cs =>
    ⟨Command.messages_executeEach m cs, Command.map_snd_turns m cs,
      fun turn _ => Command.says_execute turn.1 turn.2⟩⟩

end ByteMachine
