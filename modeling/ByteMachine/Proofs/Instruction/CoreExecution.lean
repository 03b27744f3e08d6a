import ByteMachine.Proofs.Instruction.Execution

/-!
# Executing a command of the core plugin

What `Table.core.execute` does to any machine, said without the functions that do it.

* `Command.Invokes`: the command's opcode is `0.n`, and the connective stands at place `n`.
* `Command.Selects`: the command invokes a connective and its operands name the two cells that
  the connective works on; negation works on the first alone.
* `Command.Refused`: the first reason, in a fixed order, why nothing is done.
* `Machine.Rewritten`: two machines differ in one byte of memory and in nothing else.

`execute_core` says that a command is refused exactly for these reasons, that it then leaves the
machine as it is, and that otherwise it succeeds and rewrites the destination with the
connective's value.
-/

namespace ByteMachine

/-! ## 1. What a command asks for -/

/-- The command has the opcode `0.n`, where the connective stands at place `n`. -/
def Command.Invokes (c : Command) (k : Connective) : Prop :=
  ∃ n, Connective.all[n]? = some k ∧ c.opcode = ⟨0, Int32.ofNat n⟩

/-- The connective that a command invokes, and the cells it works on. -/
inductive Command.Selects (m : Machine) (c : Command) : Connective → Offset → Offset → Prop where
  | unary {dst : Offset} (invokes : c.Invokes .not) (first : c.first.Denotes m dst) :
      Selects m c .not dst dst
  | binary {k : Connective} {dst src : Offset} (invokes : c.Invokes k) (reads : k ≠ .not)
      (first : c.first.Denotes m dst) (second : c.second.Denotes m src) : Selects m c k dst src

/-- Why nothing is done: the first reason that applies, in the order of the rules. -/
inductive Command.Refused (m : Machine) (c : Command) : Fault → Prop where
  | unknown (other : c.opcode.plugin ≠ 0 ∨ c.opcode.command < 0 ∨ 8 ≤ c.opcode.command) :
      Refused m c (.unknownInstruction c.opcode)
  | first {k : Connective} {fault : Fault} (invokes : c.Invokes k)
      (bad : c.first.Unresolved m fault) : Refused m c fault
  | second {k : Connective} {dst : Offset} {fault : Fault} (invokes : c.Invokes k)
      (reads : k ≠ .not) (good : c.first.Denotes m dst) (bad : c.second.Unresolved m fault) :
      Refused m c fault
  | locked {k : Connective} {dst src : Offset} (selects : c.Selects m k dst src)
      (locked : dst ∈ m.memory.locks) : Refused m c (.cellLocked dst)

/-- One byte of memory is replaced; locks, size, bank number, registers and stacks are kept. -/
structure Machine.Rewritten (m : Machine) (dst : Offset) (value : Byte) (after : Machine) :
    Prop where
  written : after.memory.read dst = .ok value
  others : ∀ o, o ≠ dst → after.memory.read o = m.memory.read o
  size : after.memory.size = m.memory.size
  locks : after.memory.locks = m.memory.locks
  bankId : after.bankId = m.bankId
  registers : after.registers = m.registers
  stack : after.stack = m.stack

theorem Machine.rewritten_store {m : Machine} {dst : Offset} (h : m.memory.Contains dst)
    (value : Byte) : m.Rewritten dst value (m.store dst value) where
  written := (Bank.read_store h).trans (if_pos rfl)
  others _ hne := (Bank.read_store h).trans (if_neg hne)
  size := Bank.size_store
  locks := rfl
  bankId := rfl
  registers := rfl
  stack := rfl

/-! ## 2. Opcodes of the core plugin -/

theorem Connective.place_lt {n : Nat} {k : Connective} (h : all[n]? = some k) : n < 8 :=
  (List.getElem?_eq_some_iff.mp h).1

theorem Connective.opcode_of_place {n : Nat} {k : Connective} (h : all[n]? = some k) :
    k.opcode = ⟨0, Int32.ofNat n⟩ := by
  have placed : ∀ n < 8, all[n]?.map (·.opcode) = some ⟨0, Int32.ofNat n⟩ := by decide
  have := placed n (place_lt h)
  rw [h] at this
  exact Option.some.inj this

theorem Command.Invokes.opcode_eq {c : Command} {k : Connective} (h : c.Invokes k) :
    c.opcode = k.opcode := by
  obtain ⟨n, hn, e⟩ := h
  rw [e, Connective.opcode_of_place hn]

theorem Connective.opcode_core (k : Connective) :
    k.opcode.plugin = 0 ∧ 0 ≤ k.opcode.command ∧ k.opcode.command < 8 := by
  cases k <;> decide

/-- An opcode outside `0.0` to `0.7` is in no entry of the core table. -/
theorem Table.find?_core_of_unknown {opcode : Opcode}
    (h : opcode.plugin ≠ 0 ∨ opcode.command < 0 ∨ 8 ≤ opcode.command) :
    core.find? opcode = none := by
  refine find?_core_of_ne fun k hk => ?_
  subst hk
  obtain ⟨plugin, low, high⟩ := k.opcode_core
  rcases h with h | h | h
  · exact h plugin
  · exact Int32.not_lt.mpr low h
  · exact Int32.not_le.mpr high h

/-- Every opcode from `0.0` to `0.7` invokes a connective. -/
theorem Command.exists_invokes {c : Command} (plugin : c.opcode.plugin = 0)
    (low : 0 ≤ c.opcode.command) (high : c.opcode.command < 8) : ∃ k, c.Invokes k := by
  have bound : c.opcode.command.toNatClampNeg < 8 := by
    have hl := Int32.le_iff_toInt_le.mp low
    have hh := Int32.lt_iff_toInt_lt.mp high
    have e := Int32.cast_toNatClampNeg c.opcode.command low
    simp only [Int32.reduceToInt] at hl hh
    omega
  have named : Int32.ofNat c.opcode.command.toNatClampNeg = c.opcode.command := by
    apply Int32.toInt_inj.mp
    rw [Int32.toInt_ofNat_of_lt (by omega), Int32.cast_toNatClampNeg _ low]
  refine ⟨Connective.all[c.opcode.command.toNatClampNeg], c.opcode.command.toNatClampNeg,
    List.getElem?_eq_getElem bound, ?_⟩
  rw [named, ← plugin]

/-! ## 3. The two ways a run can end -/

section Ends

variable {m : Machine} {c : Command}

theorem Command.Invokes.find? {k : Connective} (h : c.Invokes k) :
    Table.core.find? c.opcode = some k.entry := by
  rw [h.opcode_eq, Table.find?_core]

theorem Connective.arity_of_ne {k : Connective} (h : k ≠ .not) : k.arity = .binary := by
  cases k <;> first | exact absurd rfl h | rfl

/-- Both look-ups, before the handler and by the handler, find the selected cells. -/
theorem Command.Selects.contains {k : Connective} {dst src : Offset} (h : c.Selects m k dst src) :
    m.memory.Contains dst ∧ m.memory.Contains src := by
  cases h with
  | unary _ first => exact ⟨first.contains, first.contains⟩
  | binary _ _ first second => exact ⟨first.contains, second.contains⟩

theorem Command.Selects.dispatched {k : Connective} {dst src : Offset}
    (h : c.Selects m k dst src) :
    Table.core.find? c.opcode = some k.entry ∧ Table.cells k.arity c m = .ok (dst, src) := by
  cases h with
  | unary invokes first =>
    exact ⟨invokes.find?, Table.cells_unary_eq_ok.mpr ⟨Operand.resolve_of_denotes first, rfl⟩⟩
  | binary invokes reads first second =>
    refine ⟨invokes.find?, ?_⟩
    rw [Connective.arity_of_ne reads]
    exact Table.cells_binary_eq_ok.mpr
      ⟨Operand.resolve_of_denotes first, Operand.resolve_of_denotes second⟩

/-- A command that selects its cells ends as the handler of its connective does. -/
theorem Command.Selects.execute {k : Connective} {dst src : Offset} (h : c.Selects m k dst src) :
    (Table.core.execute c).Alike (k.handler dst src) m := by
  obtain ⟨found, cells⟩ := h.dispatched
  exact Table.execute_of_cells found cells

theorem Command.Selects.inspected {k : Connective} {dst src : Offset} (h : c.Selects m k dst src) :
    ∀ o ∈ k.inspected dst src, m.memory.Contains o := by
  obtain ⟨hd, hs⟩ := h.contains
  intro o ho
  rcases Connective.mem_inspected ho with rfl | rfl
  · exact hd
  · exact hs

/-- An operand is never unresolved for a lock. -/
theorem Operand.Unresolved.ne_cellLocked {x : Operand} {fault : Fault} (h : x.Unresolved m fault)
    (o : Offset) : fault ≠ .cellLocked o := by
  cases h <;> nofun

/-- A command is refused for a lock, or before anything is logged. -/
theorem Command.Refused.locked_or_silent {fault : Fault} (h : c.Refused m fault) :
    (∃ k dst src, c.Selects m k dst src ∧ dst ∈ m.memory.locks ∧ fault = .cellLocked dst) ∨
    (∀ o, fault ≠ .cellLocked o) ∧ (Table.core.execute c).run m = ⟨.error fault, m, []⟩ := by
  cases h with
  | unknown other =>
    exact .inr ⟨nofun, Table.execute_of_none (Table.find?_core_of_unknown other) m⟩
  | first invokes bad =>
    exact .inr ⟨bad.ne_cellLocked,
      Table.execute_of_unresolved invokes.find? (Table.cells_of_first_unresolved _ bad)⟩
  | @second k dst fault invokes reads good bad =>
    have cells : Table.cells k.entry.arity c m = .error fault := by
      show Table.cells k.arity c m = _
      rw [Connective.arity_of_ne reads]
      exact Table.cells_of_second_unresolved good bad
    exact .inr ⟨bad.ne_cellLocked, Table.execute_of_unresolved invokes.find? cells⟩
  | locked selects locked => exact .inl ⟨_, _, _, selects, locked, rfl⟩

/-- A reason for refusal is reported, and the machine is left as it is. -/
theorem Command.Refused.execute {fault : Fault} (h : c.Refused m fault) :
    (Table.core.execute c).Ends m (.error fault) m := by
  rcases h.locked_or_silent with ⟨k, dst, src, selects, locked, rfl⟩ | ⟨_, silent⟩
  · exact selects.execute.ends
      (Action.ends_of_run (Connective.handler_of_locked _ selects.inspected locked))
  · exact Action.ends_of_run silent

/-- Selected cells with an unlocked destination are joined and stored. -/
theorem Command.Selects.execute_of_free {k : Connective} {dst src : Offset}
    (h : c.Selects m k dst src) (free : dst ∉ m.memory.locks) :
    (Table.core.execute c).Ends m (.ok ())
      (m.store dst (k.value dst src (m.memory.byteAt dst) (m.memory.byteAt src))) :=
  h.execute.ends (Action.ends_of_run (Connective.handler_of_free k h.inspected free))

/-- Every command is refused, or selects cells of which the destination is not locked. -/
theorem Command.refused_or_selects (m : Machine) (c : Command) :
    (∃ fault, c.Refused m fault) ∨ ∃ k dst src, c.Selects m k dst src ∧ dst ∉ m.memory.locks := by
  by_cases known : c.opcode.plugin = 0 ∧ 0 ≤ c.opcode.command ∧ c.opcode.command < 8
  · obtain ⟨plugin, low, high⟩ := known
    obtain ⟨k, hk⟩ := exists_invokes plugin low high
    rcases Operand.denotes_or_unresolved m c.first with ⟨dst, hd⟩ | ⟨fault, bad⟩
    · -- The first operand names a cell; a second one is needed unless the connective is `not`.
      have decided : (∃ src, c.Selects m k dst src) ∨ ∃ fault, c.Refused m fault := by
        by_cases reads : k = .not
        · subst reads
          exact .inl ⟨dst, .unary hk hd⟩
        · rcases Operand.denotes_or_unresolved m c.second with ⟨src, hs⟩ | ⟨fault, bad⟩
          · exact .inl ⟨src, .binary hk reads hd hs⟩
          · exact .inr ⟨fault, .second hk reads hd bad⟩
      rcases decided with ⟨src, selects⟩ | refused
      · by_cases locked : dst ∈ m.memory.locks
        · exact .inl ⟨_, .locked selects locked⟩
        · exact .inr ⟨k, dst, src, selects, locked⟩
      · exact .inl refused
    · exact .inl ⟨fault, .first hk bad⟩
  · refine .inl ⟨_, .unknown ?_⟩
    by_cases plugin : c.opcode.plugin = 0
    · by_cases low : 0 ≤ c.opcode.command
      · exact .inr (.inr (Int32.not_lt.mp fun high => known ⟨plugin, low, high⟩))
      · exact .inr (.inl (Int32.not_le.mp low))
    · exact .inl plugin

end Ends

/-! ## 4. The whole behaviour -/

/-- **What executing a command of the core plugin does.** It fails exactly for the first reason
    that applies and then leaves the machine as it is; otherwise it succeeds, and the machine
    differs from before in the destination only, which holds the connective's value of the two
    old bytes. -/
theorem execute_core (c : Command) (m : Machine) :
    (∀ fault, ((Table.core.execute c).run m).result = .error fault ↔ c.Refused m fault) ∧
    (∀ fault, c.Refused m fault → ((Table.core.execute c).run m).state = m) ∧
    (((Table.core.execute c).run m).result = .ok () ↔
      ∃ k dst src, c.Selects m k dst src ∧ dst ∉ m.memory.locks) ∧
    ∀ k dst src, c.Selects m k dst src → dst ∉ m.memory.locks →
      ∃ d s, m.memory.read dst = .ok d ∧ m.memory.read src = .ok s ∧
        m.Rewritten dst (if k = .imp ∧ src = dst then ~~~d else k.truth d s)
          ((Table.core.execute c).run m).state := by
  refine ⟨fun fault => ⟨fun h => ?_, fun h => h.execute.1⟩, fun fault h => h.execute.2,
    ⟨fun h => ?_, fun ⟨k, dst, src, selects, free⟩ => (selects.execute_of_free free).1⟩,
    fun k dst src selects free => ?_⟩
  · rcases c.refused_or_selects m with ⟨cause, refused⟩ | ⟨k, dst, src, selects, free⟩
    · rw [refused.execute.1, Except.error.injEq] at h
      exact h ▸ refused
    · rw [(selects.execute_of_free free).1] at h
      cases h
  · rcases c.refused_or_selects m with ⟨cause, refused⟩ | selected
    · rw [refused.execute.1] at h
      cases h
    · exact selected
  · obtain ⟨hd, hs⟩ := selects.contains
    refine ⟨m.memory.byteAt dst, m.memory.byteAt src, Bank.read_of_contains_eq hd,
      Bank.read_of_contains_eq hs, ?_⟩
    rw [(selects.execute_of_free free).2]
    exact Machine.rewritten_store hd _

end ByteMachine
