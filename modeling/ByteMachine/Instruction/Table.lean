import ByteMachine.Instruction.Connective
import ByteMachine.Instruction.Names
import ByteMachine.Order
import Std.Data.HashMap

/-!
# The dispatch table

A table says which handler runs the commands of an opcode, which cells that handler reads, and
what the opcode is called. Names are optional, and are kept apart from the handlers.

* A handler is registered once: a second registration of an opcode is refused, so what a command
  means does not depend on the order in which plugins were loaded.
* A name belongs to one opcode, and an opcode has one name; a clash on either side is refused.
* `dispatch` runs a handler on two given cells, after looking up those that it reads; `execute`
  finds the cells from a command's operands first.

`Table.find?` shows the handlers of a table; `find?_set` says what storing an entry changes. The
handlers are kept in no particular order, and `opcodes` sorts them.
-/

namespace ByteMachine

/-- What a table knows of one handler. -/
structure Entry where
  /-- What runs the commands. -/
  handler : Handler
  /-- Which cells the handler reads. -/
  arity : Arity

/-- The entry of a command of the core plugin. -/
def Connective.entry (c : Connective) : Entry := ⟨c.handler, c.arity⟩

/-- Handlers by opcode, and the names of opcodes. -/
structure Table where
  /-- The handlers by opcode. -/
  entries : Std.HashMap Opcode Entry
  /-- The names. -/
  names : Names

namespace Table

/-! ## 1. Looking up -/

/-- The table without handlers. -/
def empty : Table := ⟨∅, .empty⟩

instance : Inhabited Table := ⟨empty⟩

/-- The handler of an opcode and what it reads. -/
def find? (t : Table) (opcode : Opcode) : Option Entry := t.entries[opcode]?

/-- The table in which an opcode has a given entry, whatever it had before. -/
def set (t : Table) (opcode : Opcode) (entry : Entry) : Table :=
  { t with entries := t.entries.insert opcode entry }

/-- The handler registered for an opcode. -/
def handler? (t : Table) (opcode : Opcode) : Option Handler := (t.find? opcode).map (·.handler)

/-- Which cells the handler of an opcode reads. -/
def arity? (t : Table) (opcode : Opcode) : Option Arity := (t.find? opcode).map (·.arity)

/-- The name of an opcode. -/
def mnemonic? (t : Table) (opcode : Opcode) : Option String := t.names.mnemonic? opcode

/-- The opcode with a given name, or the report that there is none. -/
def opcodeOf (t : Table) (mnemonic : String) : Except Fault Opcode :=
  match t.names.opcode? mnemonic with
  | some opcode => .ok opcode
  | none => .error (.unknownMnemonic mnemonic)

/-- All opcodes with a handler, in increasing order. -/
def opcodes (t : Table) : List Opcode := increasing t.entries.keys

/-- The number of opcodes with a handler. -/
def size (t : Table) : Nat := t.entries.size

/-- No opcode has a handler. -/
def isEmpty (t : Table) : Bool := t.entries.isEmpty

@[simp] theorem find?_empty (opcode : Opcode) : empty.find? opcode = none := by
  simp [find?, empty]

theorem find?_set (t : Table) (opcode key : Opcode) (entry : Entry) :
    (t.set opcode entry).find? key = if opcode = key then some entry else t.find? key := by
  simp [find?, set, Std.HashMap.getElem?_insert]

@[simp] theorem names_set (t : Table) (opcode : Opcode) (entry : Entry) :
    (t.set opcode entry).names = t.names := rfl

/-! ## 2. Registering and naming -/

/-- Registers the handler of an opcode that has none. -/
def registerWith (opcode : Opcode) (arity : Arity) (handler : Handler) : Action Table Unit := do
  match ← .view (·.find? opcode) with
  | some _ =>
    .emit (.handlerClash opcode)
    .fail (.duplicateHandler opcode)
  | none =>
    .emit (.registering opcode arity)
    .modify (·.set opcode { handler, arity })

/-- Registers a handler that reads both cells. -/
def register (opcode : Opcode) (handler : Handler) : Action Table Unit :=
  registerWith opcode .binary handler

/-- Names an opcode that has a handler and no name yet. -/
def name (opcode : Opcode) (mnemonic : String) : Action Table Unit := do
  match ← .view (·.find? opcode) with
  | none => .fail (.unknownInstruction opcode)
  | some _ =>
    match ← .view (·.names.insert? mnemonic opcode) with
    | none =>
      .emit (.nameClash mnemonic opcode)
      .fail (.duplicateMnemonic mnemonic)
    | some names =>
      .emit (.naming opcode mnemonic)
      .modify ({ · with names })

/-- Registers and names a command of the core plugin. -/
def registerConnective (c : Connective) : Action Table Unit := do
  registerWith c.opcode c.arity c.handler
  name c.opcode c.mnemonic

/-- Registers and names the commands of the core plugin in the order of their numbers, up to the
    first that is refused. -/
def registerCore : Action Table Unit := Connective.all.forM registerConnective

theorem registerWith_of_some {t : Table} {opcode : Opcode} {old : Entry}
    (h : t.find? opcode = some old) (arity : Arity) (handler : Handler) :
    (registerWith opcode arity handler).run t =
      ⟨.error (.duplicateHandler opcode), t, [.handlerClash opcode]⟩ := by
  rw [registerWith, Action.run_view_bind]
  simp only [h]
  rfl

theorem registerWith_of_none {t : Table} {opcode : Opcode} (h : t.find? opcode = none)
    (arity : Arity) (handler : Handler) :
    (registerWith opcode arity handler).run t =
      ⟨.ok (), t.set opcode ⟨handler, arity⟩, [.registering opcode arity]⟩ := by
  rw [registerWith, Action.run_view_bind]
  simp only [h]
  rfl

theorem name_of_none {t : Table} {opcode : Opcode} (h : t.find? opcode = none)
    (mnemonic : String) :
    (name opcode mnemonic).run t = ⟨.error (.unknownInstruction opcode), t, []⟩ := by
  rw [name, Action.run_view_bind]
  simp only [h]
  rfl

/-- A name is refused if it is taken or if the opcode has one already. -/
theorem name_of_clash {t : Table} {opcode : Opcode} {entry : Entry} {mnemonic : String}
    (h : t.find? opcode = some entry) (clash : t.names.insert? mnemonic opcode = none) :
    (name opcode mnemonic).run t =
      ⟨.error (.duplicateMnemonic mnemonic), t, [.nameClash mnemonic opcode]⟩ := by
  rw [name, Action.run_view_bind]
  simp only [h]
  rw [Action.run_view_bind]
  simp only [clash]
  rfl

theorem name_of_free {t : Table} {opcode : Opcode} {entry : Entry} {mnemonic : String}
    {names : Names} (h : t.find? opcode = some entry)
    (free : t.names.insert? mnemonic opcode = some names) :
    (name opcode mnemonic).run t = ⟨.ok (), { t with names }, [.naming opcode mnemonic]⟩ := by
  rw [name, Action.run_view_bind]
  simp only [h]
  rw [Action.run_view_bind]
  simp only [free]
  rfl

/-! ## 3. The table of the core plugin -/

/-- Stores the handler and the name of a command of the core plugin; a name that is refused is
    passed over. -/
def bundle (t : Table) (c : Connective) : Table :=
  { t.set c.opcode c.entry with names := (t.names.insert? c.mnemonic c.opcode).getD t.names }

/-- The table that holds the core plugin and nothing else. -/
def core : Table := Connective.all.foldl bundle empty

/-- What the log says when the table of the core plugin is made. -/
def coreLog : List Event := Connective.all.map fun c => .bundling c.mnemonic c.opcode

theorem find?_bundle (t : Table) (c : Connective) (key : Opcode) :
    (t.bundle c).find? key = if c.opcode = key then some c.entry else t.find? key :=
  find?_set t c.opcode key c.entry

theorem find?_foldl_of_not_mem {cs : List Connective} {key : Opcode}
    (h : ∀ c ∈ cs, c.opcode ≠ key) (t : Table) :
    (cs.foldl bundle t).find? key = t.find? key := by
  induction cs generalizing t with
  | nil => rfl
  | cons c cs ih =>
    rw [List.foldl_cons, ih fun d hd => h d (List.mem_cons_of_mem c hd), find?_bundle,
      if_neg (h c List.mem_cons_self)]

theorem find?_foldl_of_mem {cs : List Connective} {c : Connective} (h : c ∈ cs) (t : Table) :
    (cs.foldl bundle t).find? c.opcode = some c.entry := by
  induction cs generalizing t with
  | nil => cases h
  | cons d cs ih =>
    rw [List.foldl_cons]
    by_cases later : c ∈ cs
    · exact ih later _
    · have e : c = d := (List.mem_cons.mp h).resolve_right later
      subst e
      have apart : ∀ d ∈ cs, d.opcode ≠ c.opcode :=
        fun d hd same => later (Connective.opcode_inj same ▸ hd)
      rw [find?_foldl_of_not_mem apart, find?_bundle, if_pos rfl]

/-- Every connective has its entry in the core table. -/
theorem find?_core (c : Connective) : core.find? c.opcode = some c.entry :=
  find?_foldl_of_mem c.mem_all empty

/-- The core table has no other opcodes than those of the connectives. -/
theorem find?_core_of_ne {opcode : Opcode} (h : ∀ c : Connective, c.opcode ≠ opcode) :
    core.find? opcode = none := by
  rw [core, find?_foldl_of_not_mem fun c _ => h c]
  exact find?_empty opcode

/-- Every entry of the core table is that of a connective. -/
theorem exists_connective {opcode : Opcode} {entry : Entry} (h : core.find? opcode = some entry) :
    ∃ c : Connective, c.opcode = opcode ∧ entry = c.entry := by
  by_cases known : ∃ c : Connective, c.opcode = opcode
  · obtain ⟨c, rfl⟩ := known
    rw [find?_core, Option.some.injEq] at h
    exact ⟨c, rfl, h.symm⟩
  · rw [find?_core_of_ne fun c hc => known ⟨c, hc⟩] at h
    cases h

/-! ## 4. Running commands -/

/-- The cells to hand to a handler: those that both operands name or, for a handler that reads
    the destination only, that of the first operand twice. -/
def cells (arity : Arity) (c : Command) (m : Machine) : Except Fault (Offset × Offset) :=
  match arity with
  | .unary => do
    let first ← c.first.resolve m
    return (first, first)
  | .binary => c.resolve m

/-- Looks up the cells that a handler reads. -/
def check (arity : Arity) (first second : Offset) : Action Machine Unit := do
  let _ ← Machine.valueAt first
  match arity with
  | .unary => pure ()
  | .binary =>
    let _ ← Machine.valueAt second

/-- Looking up cells changes nothing. -/
theorem keeps_check {τ : Type} (f : Machine → τ) (arity : Arity) (first second : Offset) :
    Action.Keeps f (check arity first second) := by
  refine (Machine.keeps_valueAt f first).bind fun _ => ?_
  cases arity with
  | unary => exact Action.keeps_pure f ()
  | binary => exact (Machine.keeps_valueAt f second).bind fun _ => Action.keeps_pure f ()

/-- Runs the handler of an opcode on two cells of the primary memory. The cells that it reads are
    looked up first, so that it never starts on a cell that does not exist. -/
def dispatch (t : Table) (opcode : Opcode) (first second : Offset) : Action Machine Unit :=
  match t.find? opcode with
  | none => .fail (.unknownInstruction opcode)
  | some entry => do
    .emit (.dispatching (t.mnemonic? opcode) first second)
    check entry.arity first second
    .reporting (.failing opcode) (entry.handler first second)

/-- Finds the cells that a command's operands name and runs its handler on them. -/
def execute (t : Table) (c : Command) : Action Machine Unit :=
  match t.find? c.opcode with
  | none => .fail (.unknownInstruction c.opcode)
  | some entry => do
    let (first, second) ← .query (cells entry.arity c)
    t.dispatch c.opcode first second

/-- The command as text, with the name of its opcode if that has one. -/
def describe (t : Table) (c : Command) : String :=
  match t.mnemonic? c.opcode with
  | some mnemonic => mnemonic ++ c.operands
  | none => c.text

end Table

end ByteMachine
