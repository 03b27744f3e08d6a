import ByteMachine.Instruction.Table
import ByteMachine.Machine.Request

/-!
# Finite compositions of machine operations

A `Script` is an action on a machine that is put together from single requests. It may look at
the machine, log, ask a request, and go on in any way that depends on what it saw and on what the
request gave back, be it an answer or a fault; every path through it is finite.

* `Script.act` runs a script; `Script.trail` lists the requests that such a run makes, each with
  the machine that it leaves behind. `state_act` says that the last of these is the machine that
  the run ends with, and `chained_trail` that each request is served where the one before ended.
* `act_bind` and `act_reporting`: scripts are closed under the ways in which actions are composed.
* `Connective.act_script`: the connectives are scripts. `Playbook` is a dispatch table all of whose
  handlers are scripts; dispatching and executing by it are scripts too (`Playbook.act_dispatch`,
  `Playbook.act_execute`), so a handler may itself dispatch.
-/

namespace ByteMachine

/-- A finite composition of requests to a machine. -/
inductive Script (α : Type) where
  | done (result : Except Fault α)
  | log (event : Event) (rest : Script α)
  | look (rest : Machine → Script α)
  | ask (request : Machine.Request) (rest : Except Fault Answer → Script α)

/-- One request of a run: what was asked, whether it was granted, and the machine after it. -/
structure Moment where
  request : Machine.Request
  granted : Bool
  machine : Machine

/-- The machine after some moments of a run that starts with `m`. -/
def Machine.after (m : Machine) (moments : List Moment) : Machine :=
  moments.foldl (fun _ x => x.machine) m

@[simp] theorem Machine.after_nil (m : Machine) : m.after [] = m := rfl

@[simp] theorem Machine.after_cons (m : Machine) (x : Moment) (xs : List Moment) :
    m.after (x :: xs) = x.machine.after xs := rfl

theorem Machine.after_append (m : Machine) (xs ys : List Moment) :
    m.after (xs ++ ys) = (m.after xs).after ys :=
  List.foldl_append

/-- The moment of serving a request. -/
def Machine.moment (m : Machine) (request : Machine.Request) : Moment where
  request := request
  granted := ((Machine.serve request).run m).result.isOk
  machine := ((Machine.serve request).run m).state

/-- Each request is served on the machine that the one before it left. -/
def Machine.Chained : Machine → List Moment → Prop
  | _, [] => True
  | m, x :: xs => x = m.moment x.request ∧ x.machine.Chained xs

theorem Machine.chained_append {m : Machine} {xs ys : List Moment} :
    m.Chained (xs ++ ys) ↔ m.Chained xs ∧ (m.after xs).Chained ys := by
  induction xs generalizing m with
  | nil => simp [Chained]
  | cons x xs ih => simp [Chained, ih, and_assoc]

/-- The action that never fails: it gives the result of `a`, be it a value or a fault. -/
def Action.attempt {σ α : Type} (a : Action σ α) : Action σ (Except Fault α) := fun s =>
  ⟨.ok (a.run s).result, (a.run s).state, (a.run s).log⟩

theorem Action.run_attempt {σ α : Type} (a : Action σ α) (s : σ) :
    (attempt a).run s = ⟨.ok (a.run s).result, (a.run s).state, (a.run s).log⟩ := rfl

/-- What is reported of two actions, the first of which never fails, is reported of the second. -/
theorem Action.reporting_bind {σ α β : Type} {a : Action σ α} (event : Fault → Event)
    (total : ∀ s, ∃ x t log, a.run s = ⟨.ok x, t, log⟩) (f : α → Action σ β) :
    reporting event (a >>= f) = a >>= fun x => reporting event (f x) := by
  refine Action.ext fun s => ?_
  obtain ⟨x, t, log, h⟩ := total s
  rw [bind_of_ok h]
  have whole := bind_of_ok (f := f) h
  rcases k : (f x).run t with ⟨fault | y, u, more⟩
  · rw [k] at whole
    rw [reporting_of_error whole, reporting_of_error k, List.append_assoc]
  · rw [k] at whole
    rw [reporting_of_ok whole, reporting_of_ok k]

namespace Script

variable {α β : Type}

/-! ## 1. Running a script -/

/-- Runs the script. -/
def act : Script α → Action Machine α
  | .done (.ok x) => pure x
  | .done (.error fault) => .fail fault
  | .log event rest => do
    .emit event
    rest.act
  | .look rest => do
    let m ← .view id
    (rest m).act
  | .ask request rest => do
    let result ← .attempt (Machine.serve request)
    (rest result).act

/-- The requests that a run of the script makes. -/
def trail : Script α → Machine → List Moment
  | .done _, _ => []
  | .log _ rest, m => rest.trail m
  | .look rest, m => (rest m).trail m
  | .ask request rest, m =>
    let out := (Machine.serve request).run m
    m.moment request :: (rest out.result).trail out.state

/-- A run ends with the machine that its last request leaves. -/
theorem state_act (p : Script α) (m : Machine) : (p.act.run m).state = m.after (p.trail m) := by
  induction p generalizing m with
  | done result => cases result <;> rfl
  | log event rest ih => exact ih m
  | look rest ih => exact ih m m
  | ask request rest ih => exact ih _ _

theorem chained_trail (p : Script α) (m : Machine) : m.Chained (p.trail m) := by
  induction p generalizing m with
  | done result => trivial
  | log event rest ih => exact ih m
  | look rest ih => exact ih m m
  | ask request rest ih => exact ⟨rfl, ih _ _⟩

/-! ## 2. Composing scripts -/

/-- One script, and then another that may use the first one's value. -/
def bind : Script α → (α → Script β) → Script β
  | .done (.ok x), next => next x
  | .done (.error fault), _ => .done (.error fault)
  | .log event rest, next => .log event (rest.bind next)
  | .look rest, next => .look fun m => (rest m).bind next
  | .ask request rest, next => .ask request fun result => (rest result).bind next

/-- The script with one more line logged if it fails. -/
def reporting (event : Fault → Event) : Script α → Script α
  | .done (.ok x) => .done (.ok x)
  | .done (.error fault) => .log (event fault) (.done (.error fault))
  | .log line rest => .log line (rest.reporting event)
  | .look rest => .look fun m => (rest m).reporting event
  | .ask request rest => .ask request fun result => (rest result).reporting event

theorem act_bind (p : Script α) (next : α → Script β) :
    (p.bind next).act = p.act >>= fun x => (next x).act := by
  induction p with
  | done result =>
    cases result with
    | ok x => rw [bind, act, pure_bind]
    | error fault => rfl
  | log event rest ih => rw [bind, act, act, ih, bind_assoc]
  | look rest ih =>
    rw [bind, act, act, bind_assoc]
    exact congrArg _ (funext ih)
  | ask request rest ih =>
    rw [bind, act, act, bind_assoc]
    exact congrArg _ (funext ih)

theorem act_reporting (event : Fault → Event) (p : Script α) :
    (p.reporting event).act = Action.reporting event p.act := by
  induction p with
  | done result => cases result <;> rfl
  | log line rest ih =>
    rw [reporting, act, act, Action.reporting_bind event fun s => ⟨_, _, _, Action.run_emit _ s⟩,
      ih]
  | look rest ih =>
    rw [reporting, act, act, Action.reporting_bind event fun s => ⟨_, _, _, Action.run_view _ s⟩]
    exact congrArg _ (funext ih)
  | ask request rest ih =>
    rw [reporting, act, act, Action.reporting_bind event fun s => ⟨_, _, _, Action.run_attempt _ s⟩]
    exact congrArg _ (funext ih)

/-! ## 3. Single requests -/

/-- Asks a request for its effect. -/
def order (request : Machine.Request) : Script Unit :=
  .ask request fun result => .done (result.map fun _ => ())

/-- Asks for the content of a cell. -/
def read (o : Offset) : Script Byte :=
  .ask (.memory (.read o)) fun
    | .ok (.byte value) => .done (.ok value)
    | .ok _ => .done (.ok 0)
    | .error fault => .done (.error fault)

/-- Stores a byte in a cell. -/
def write (o : Offset) (value : Byte) : Script Unit := order (.memory (.write o value))

theorem act_order (request : Machine.Request) :
    (order request).act = Machine.serve request >>= fun _ => pure () := by
  refine Action.ext fun m => ?_
  have tried := Action.run_attempt (Machine.serve request) m
  rcases h : (Machine.serve request).run m with ⟨fault | answer, t, events⟩
  · rw [h] at tried
    rw [Action.bind_of_error h, order, act, Action.bind_of_ok tried]
    simp [Except.map, act]
  · rw [h] at tried
    rw [Action.bind_of_ok h, order, act, Action.bind_of_ok tried]
    rfl

theorem act_read (o : Offset) : (read o).act = Machine.valueAt o := by
  refine Action.ext fun m => ?_
  have tried := Action.run_attempt (Machine.serve (.memory (.read o))) m
  have served : (Machine.serve (.memory (.read o))).run m =
      ⟨(m.memory.read o).map .byte, m, []⟩ := by
    simp [Machine.serve, Machine.onMemory, Bank.serve]
  rw [served] at tried
  rw [read, act, Action.bind_of_ok tried, Machine.run_valueAt]
  cases m.memory.read o <;> rfl

theorem act_write (o : Offset) (value : Byte) : (write o value).act = Machine.setValueAt o value := by
  rw [write, act_order]
  refine Action.ext fun m => ?_
  rcases h : (Bank.write o value).run m.memory with ⟨fault | done, b, events⟩
  · have served : (Machine.serve (.memory (.write o value))).run m =
        ⟨.error fault, { m with memory := b }, events⟩ := by
      simp only [Machine.serve, Machine.onMemory, Bank.serve, Action.run_within,
        Action.bind_of_error h]
    rw [Action.bind_of_error served]
    simp [Machine.setValueAt, Machine.onMemory, h]
  · have served : (Machine.serve (.memory (.write o value))).run m =
        ⟨.ok .done, { m with memory := b }, events⟩ := by
      simp only [Machine.serve, Machine.onMemory, Bank.serve, Action.run_within,
        Action.bind_of_ok h]
      simp
    rw [Action.bind_of_ok served]
    simp [Machine.setValueAt, Machine.onMemory, h]

end Script

/-! ## 4. The connectives -/

namespace Connective

/-- Joining both cells, as a script. -/
def combineScript (f : Byte → Byte → Byte) (dst src : Offset) : Script Unit :=
  (Script.read dst).bind fun d => (Script.read src).bind fun s => Script.write dst (f d s)

/-- Negating the destination, as a script. -/
def negateScript (dst : Offset) : Script Unit :=
  (Script.read dst).bind fun d => Script.write dst (~~~d)

/-- How a connective runs, as a script. -/
def script : Connective → Offset → Offset → Script Unit
  | .and, dst, src => combineScript (· &&& ·) dst src
  | .or, dst, src => combineScript (· ||| ·) dst src
  | .not, dst, _ => negateScript dst
  | .xor, dst, src => combineScript (· ^^^ ·) dst src
  | .eqv, dst, src => (combineScript (· ^^^ ·) dst src).bind fun _ => negateScript dst
  | .imp, dst, src =>
    (Script.read src).bind fun _ =>
      (negateScript dst).bind fun _ => combineScript (· ||| ·) dst src
  | .nand, dst, src => (combineScript (· &&& ·) dst src).bind fun _ => negateScript dst
  | .nor, dst, src => (combineScript (· ||| ·) dst src).bind fun _ => negateScript dst

theorem act_combineScript (f : Byte → Byte → Byte) (dst src : Offset) :
    (combineScript f dst src).act = combine f dst src := by
  simp only [combineScript, combine, Script.act_bind, Script.act_read, Script.act_write]

theorem act_negateScript (dst src : Offset) : (negateScript dst).act = negate dst src := by
  simp only [negateScript, negate, Script.act_bind, Script.act_read, Script.act_write]

theorem act_script (k : Connective) (dst src : Offset) :
    (k.script dst src).act = k.handler dst src := by
  cases k with
  | and | or | xor => exact act_combineScript _ dst src
  | not => exact act_negateScript dst src
  | eqv | nand | nor =>
    simp only [script, handler, Script.act_bind, act_combineScript, act_negateScript dst src]
  | imp =>
    simp only [script, handler, Script.act_bind, Script.act_read, act_combineScript,
      act_negateScript dst src]

end Connective

/-! ## 5. Tables of scripts -/

/-- A dispatch table with the scripts that its handlers run. -/
structure Playbook where
  table : Table
  script : Opcode → Offset → Offset → Script Unit
  follows : ∀ {opcode : Opcode} {entry : Entry}, table.find? opcode = some entry →
    ∀ first second, entry.handler first second = (script opcode first second).act

namespace Playbook

/-- The core plugin. -/
def core : Playbook where
  table := Table.core
  script opcode first second :=
    match Connective.all.find? (·.opcode = opcode) with
    | some k => k.script first second
    | none => .done (.ok ())
  follows := by
    intro opcode entry h first second
    obtain ⟨k, rfl, rfl⟩ := Table.exists_connective h
    have found : Connective.all.find? (·.opcode = k.opcode) = some k := by cases k <;> decide
    rw [found]
    exact (k.act_script first second).symm

/-- Looking up the cells that a handler reads, as a script. -/
def check (arity : Arity) (first second : Offset) : Script Unit :=
  (Script.read first).bind fun _ =>
    match arity with
    | .unary => .done (.ok ())
    | .binary => (Script.read second).bind fun _ => .done (.ok ())

theorem act_check (arity : Arity) (first second : Offset) :
    (check arity first second).act = Table.check arity first second := by
  cases arity with
  | unary =>
    simp only [check, Table.check, Script.act_bind, Script.act_read]
    rfl
  | binary =>
    simp only [check, Table.check, Script.act_bind, Script.act_read]
    rfl

variable (p : Playbook)

/-- Dispatching, as a script. -/
def dispatch (opcode : Opcode) (first second : Offset) : Script Unit :=
  match p.table.find? opcode with
  | none => .done (.error (.unknownInstruction opcode))
  | some entry =>
    .log (.dispatching (p.table.mnemonic? opcode) first second)
      ((check entry.arity first second).bind fun _ =>
        (p.script opcode first second).reporting (.failing opcode))

/-- Executing, as a script. -/
def execute (c : Command) : Script Unit :=
  match p.table.find? c.opcode with
  | none => .done (.error (.unknownInstruction c.opcode))
  | some entry => .look fun m =>
    match Table.cells entry.arity c m with
    | .error fault => .done (.error fault)
    | .ok (first, second) => p.dispatch c.opcode first second

theorem act_dispatch (opcode : Opcode) (first second : Offset) :
    (p.dispatch opcode first second).act = p.table.dispatch opcode first second := by
  cases h : p.table.find? opcode with
  | none =>
    rw [dispatch, Table.dispatch, h]
    rfl
  | some entry =>
    rw [dispatch, Table.dispatch, h]
    simp only [Script.act, Script.act_bind, act_check, Script.act_reporting, p.follows h]

theorem act_execute (c : Command) : (p.execute c).act = p.table.execute c := by
  cases h : p.table.find? c.opcode with
  | none =>
    rw [execute, Table.execute, h]
    rfl
  | some entry =>
    rw [execute, Table.execute, h]
    refine Action.ext fun m => ?_
    simp only [Script.act]
    rw [Action.run_view_bind, id_eq]
    cases hc : Table.cells entry.arity c m with
    | error fault =>
      rw [Action.query_bind_of_error hc]
      rfl
    | ok pair =>
      rw [Action.query_bind_of_ok hc]
      simp only [act_dispatch]

end Playbook

end ByteMachine
