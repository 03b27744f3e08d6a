import ByteMachine.Machine.Picture
import ByteMachine.Monitor.Request

/-!
# The monitor

The state of a monitor and how it carries out requests. A refused request leaves behind whatever
was done before it was refused, and the monitor goes on from there.
-/

namespace ByteMachine

/-- A machine and all that is kept beside it. -/
structure Monitor where
  /-- The machine. -/
  machine : Machine
  /-- Further banks. -/
  registry : Registry
  /-- Which handlers run commands. -/
  table : Table
  /-- A saved copy of the machine. -/
  saved : Option Machine

namespace Monitor

/-! ## 1. Starting -/

/-- The dispatch table that a monitor starts with. -/
inductive Preset where
  /-- No handlers. -/
  | empty
  /-- The core plugin. -/
  | core
  deriving DecidableEq, Repr

/-- The table of a preset. -/
def Preset.table : Preset → Table
  | .empty => .empty
  | .core => .core

/-- What the log says when the table of a preset is made. -/
def Preset.log : Preset → List Event
  | .empty => []
  | .core => Table.coreLog

/-- A monitor over a fresh machine, and what was logged while it was made. -/
def start (config : Machine.Config) (preset : Preset) : Except Fault (Monitor × List Event) := do
  let machine ← Machine.create config
  return ({ machine, registry := .empty, table := preset.table, saved := none },
    config.announcement :: preset.log)

/-! ## 2. Parts -/

/-- Runs an action on the machine. -/
def onMachine {α : Type} (a : Action Machine α) : Action Monitor α :=
  .within machine (fun machine s => { s with machine }) a

/-- Runs an action on the registry. -/
def onRegistry {α : Type} (a : Action Registry α) : Action Monitor α :=
  .within registry (fun registry s => { s with registry }) a

/-- Runs an action on the dispatch table. -/
def onTable {α : Type} (a : Action Table α) : Action Monitor α :=
  .within table (fun table s => { s with table }) a

/-- The banks that are looked up through a source. -/
def banks (s : Monitor) : Source → Banks
  | .machine => s.machine.bank?
  | .registry => s.registry.bank?

/-- The chosen dispatch table. -/
def chosen (s : Monitor) : Choice → Table
  | .own => s.table
  | .core => .core

/-- What the monitor's dispatch table shows. -/
def list (s : Monitor) : Listing where
  size := s.table.size
  isEmpty := s.table.isEmpty
  rows := s.table.opcodes.filterMap fun opcode =>
    (s.table.arity? opcode).map fun arity => ⟨opcode, arity, s.table.mnemonic? opcode⟩

/-! ## 3. Serving requests -/

/-- Runs an action for its effect. -/
def effect (a : Action Monitor Unit) : Action Monitor Reply := do
  a
  return .answer .done

/-- Gives back what there is to show, if there is anything. -/
def shown {α : Type} (reply : α → Reply) : Option α → Reply
  | some x => reply x
  | none => .absent

/-- Carries out a request. -/
def serve : Request → Action Monitor Reply
  | .machine request => .answer <$> onMachine (Machine.serve request)
  | .bankId => .view fun s => .bankId s.machine.bankId
  | .readAt source address => .query fun s =>
    ((s.banks source).readAt address).map fun value => .answer (.byte value)
  | .bank source id => .view fun s => shown .bank (s.banks source id)
  | .registers => .view fun s => .text s.machine.registers.text
  | .picture => .view fun s => .text s.machine.picture
  | .snapshot => effect (.modify fun s => { s with saved := some s.machine })
  | .unchanged => .view fun s => .answer (.flag (s.saved = some s.machine))
  | .restore => do
    match ← .view saved with
    | some machine =>
      .modify fun s => { s with machine }
      return .answer (.flag true)
    | none => return .answer (.flag false)
  | .insertBank id size bytes => do
    let bank ← .query fun _ => Bank.load size bytes
    shown .answer <$> onRegistry (Registry.serve (.insert id bank))
  | .onBank id request => shown .answer <$> onRegistry (Registry.serve (.bank id request))
  | .commandText command => .view fun _ => .text command.text
  | .resolve command => .query fun s =>
    (command.resolve s.machine).map fun (first, second) => .cells first second
  | .operandText operand => .view fun _ => .text operand.text
  | .resolveOperand operand => .query fun s =>
    (operand.resolve s.machine).map fun o => .answer (.word o)
  | .operandValue source operand => .query fun s =>
    (operand.value (s.banks source)).map fun value => .answer (.byte value)
  | .table request => effect (onTable (Table.serve request))
  | .hasHandler opcode => .view fun s => .answer (.flag (s.table.handler? opcode).isSome)
  | .arity opcode => .view fun s => shown .arity (s.table.arity? opcode)
  | .opcodeOf mnemonic => .query fun s => (s.table.opcodeOf mnemonic).map .opcode
  | .mnemonicOf opcode => .view fun s => shown .text (s.table.mnemonic? opcode)
  | .listing => .view fun s => .listing s.list
  | .dispatch choice opcode first second => do
    let table ← .view (·.chosen choice)
    effect (onMachine (table.dispatch opcode first second))
  | .execute choice command => do
    let table ← .view (·.chosen choice)
    effect (onMachine (table.execute command))
  | .describe choice command => .view fun s => .text ((s.chosen choice).describe command)
  | .handle opcode first second => do
    match ← .view (·.table.handler? opcode) with
    | some handler => effect (onMachine (handler first second))
    | none => return .absent
  | .handleCore connective first second => effect (onMachine (connective.handler first second))

end Monitor

end ByteMachine
