import ByteMachine.Proofs.Instruction.Commutation

/-!
# Composite commands and the sequences they stand for

Four commands of the core plugin do in one what two others do one after the other: `eqv` is `xor`
and then `not`, `nand` is `and` and then `not`, `nor` is `or` and then `not`, `imp` is `not` and
then `or`. As commands the two steps resolve their operands anew, are refused on their own, and a
`not` does not look at its second operand.

* `Command.Selects.execute_twice`: two commands that write one unlocked cell, of which the second
  sees what the first has written. Here the operands may name one cell or two.
* `negated_in_turn`: a command that negates what another one gives is that one and then `not`.
* `imp_in_turn`: so is `imp`, unless the first operand names a cell and the second does not.
  There `imp_of_bad_source`, `not_or_of_locked` and `not_or_of_free` say what the two do, and
  `imp_not_alike` that it is never the same.

`composites_are_their_steps` collects them.
-/

namespace ByteMachine

/-! ## 1. Two commands that write one cell -/

/-- A command executed where a byte has been stored in its own destination sees that byte. -/
theorem Command.Selects.execute_store_self {m : Machine} {c : Command} {k : Connective}
    {dst src : Offset} (h : c.Selects m k dst src) (free : dst ∉ m.memory.locks) (byte : Byte) :
    (Table.core.execute c).Ends (m.store dst byte) (.ok ())
      (m.store dst
        (k.value dst src byte (if src = dst then byte else m.memory.byteAt src))) := by
  obtain ⟨hd, hs⟩ := h.contains
  have seen : (m.store dst byte).memory.byteAt dst = byte := Bank.byteAt_store_self hd
  have source : (m.store dst byte).memory.byteAt src =
      if src = dst then byte else m.memory.byteAt src := by
    split
    case isTrue shared => rw [shared, seen]
    case isFalse apart => exact Bank.byteAt_store_of_ne hd hs apart
  have ends := (h.store dst byte).execute_of_free free
  rw [seen, source, Machine.store_store] at ends
  exact ends

/-- **The second of two commands on one unlocked cell works on what the first has left there.** -/
theorem Command.Selects.execute_twice {m : Machine} {c d : Command} {k l : Connective}
    {dst src src' : Offset} (hc : c.Selects m k dst src) (hd : d.Selects m l dst src')
    (free : dst ∉ m.memory.locks) :
    let byte := k.value dst src (m.memory.byteAt dst) (m.memory.byteAt src)
    (do Table.core.execute c; Table.core.execute d).Ends m (.ok ())
      (m.store dst
        (l.value dst src' byte (if src' = dst then byte else m.memory.byteAt src'))) :=
  (hc.execute_of_free free).bind (hd.execute_store_self free _)

namespace Connective

/-! ## 2. One connective on two operands -/

/-- The command that runs a connective on two operands. -/
def on (k : Connective) (a b : Operand) : Command := ⟨k.opcode, a, b⟩

/-- Two connectives on the same operands, the second one only if the first one succeeds. -/
def inTurn (k l : Connective) (a b : Operand) : Action Machine Unit := do
  Table.core.execute (k.on a b)
  Table.core.execute (l.on a b)

section Operands

variable {m : Machine} {a b : Operand} {dst src : Offset} {fault : Fault}

theorem invokes_on (k : Connective) (a b : Operand) : (k.on a b).Invokes k := by
  obtain ⟨n, place⟩ := List.mem_iff_getElem?.mp k.mem_all
  exact ⟨n, place, opcode_of_place place⟩

theorem selects_not (ha : a.Denotes m dst) : (not.on a b).Selects m .not dst dst :=
  .unary (invokes_on .not a b) ha

theorem selects_on {k : Connective} (reads : k ≠ .not) (ha : a.Denotes m dst)
    (hb : b.Denotes m src) : (k.on a b).Selects m k dst src :=
  .binary (k.invokes_on a b) reads ha hb

/-- Two operands are refused by all connectives that read both, for one and the same reason, or
    they name two cells of which the first is not locked. -/
theorem refused_or_cells (m : Machine) (a b : Operand) :
    (∃ fault, ∀ k ≠ .not, (on k a b).Refused m fault) ∨
    ∃ dst src, a.Denotes m dst ∧ b.Denotes m src ∧ dst ∉ m.memory.locks := by
  rcases a.denotes_or_unresolved m with ⟨dst, ha⟩ | ⟨fault, bad⟩
  · rcases b.denotes_or_unresolved m with ⟨src, hb⟩ | ⟨fault, bad⟩
    · by_cases locked : dst ∈ m.memory.locks
      · exact .inl ⟨_, fun k reads => .locked (selects_on reads ha hb) locked⟩
      · exact .inr ⟨dst, src, ha, hb, locked⟩
    · exact .inl ⟨fault, fun k reads => .second (k.invokes_on a b) reads ha bad⟩
  · exact .inl ⟨fault, fun k _ => .first (k.invokes_on a b) bad⟩

/-! ## 3. Commands that negate -/

/-- **What negates another connective is that one and then `not`.** -/
theorem negated_in_turn {k l : Connective} (reads : k ≠ .not) (reads' : l ≠ .not)
    (negates : ∀ dst src d s, k.value dst src d s = ~~~l.value dst src d s) (m : Machine)
    (a b : Operand) : (Table.core.execute (k.on a b)).Alike (inTurn l .not a b) m := by
  rcases refused_or_cells m a b with ⟨fault, refused⟩ | ⟨dst, src, ha, hb, free⟩
  · exact (refused k reads).execute.alike (refused l reads').execute.bind_error
  · have one := (selects_on reads ha hb).execute_of_free free
    rw [negates] at one
    exact one.alike ((selects_on reads' ha hb).execute_twice (selects_not ha) free)

/-! ## 4. Implication -/

/-- What `or` makes of the negated destination, be the source the destination or not. -/
theorem value_imp (dst src : Offset) (d s : Byte) :
    imp.value dst src d s = or.value dst src (~~~d) (if src = dst then ~~~d else s) := by
  by_cases shared : src = dst <;> simp [value, truth, shared]

/-- A `not` that is refused does not let the `or` get as far as the source. -/
theorem not_or_of_locked (ha : a.Denotes m dst) (locked : dst ∈ m.memory.locks) :
    (inTurn .not .or a b).Ends m (.error (.cellLocked dst)) m :=
  (Command.Refused.locked (selects_not ha) locked).execute.bind_error

/-- **`imp` is `not` and then `or`**, if the first operand names no cell or both name one. -/
theorem imp_in_turn (h : ∀ dst, a.Denotes m dst → ∃ src, b.Denotes m src) :
    (Table.core.execute (imp.on a b)).Alike (inTurn .not .or a b) m := by
  rcases a.denotes_or_unresolved m with ⟨dst, ha⟩ | ⟨fault, bad⟩
  · obtain ⟨src, hb⟩ := h dst ha
    have selects : (imp.on a b).Selects m .imp dst src := selects_on (by decide) ha hb
    by_cases locked : dst ∈ m.memory.locks
    · exact (Command.Refused.locked selects locked).execute.alike (not_or_of_locked ha locked)
    · have one := selects.execute_of_free locked
      rw [value_imp] at one
      exact one.alike ((selects_not ha).execute_twice (selects_on (by decide) ha hb) locked)
  · have one := (Command.Refused.first (invokes_on .imp a b) bad).execute
    have two := (Command.Refused.first (invokes_on .not a b) bad).execute
    exact one.alike two.bind_error

/-- `imp` looks up its source before it writes anything. -/
theorem imp_of_bad_source (ha : a.Denotes m dst) (bad : b.Unresolved m fault) :
    (Table.core.execute (imp.on a b)).Ends m (.error fault) m :=
  (Command.Refused.second (invokes_on .imp a b) (by decide) ha bad).execute

/-- A `not` that is granted has written when the `or` finds no source. -/
theorem not_or_of_free (ha : a.Denotes m dst) (bad : b.Unresolved m fault)
    (free : dst ∉ m.memory.locks) :
    (inTurn .not .or a b).Ends m (.error fault) (m.store dst (~~~m.memory.byteAt dst)) :=
  ((selects_not ha).execute_of_free free).bind
    (Command.Refused.second (invokes_on .or a b) (by decide) (Command.denotes_store ha)
      (Command.unresolved_store bad)).execute

theorem complement_ne (d : Byte) : d ≠ ~~~d := by
  intro same
  have number := congrArg UInt8.toNat same
  rw [UInt8.toNat_not, UInt8.size] at number
  omega

/-- **With a source that names no cell the two always differ**, in the result where the destination
    is locked and in the machine where it is not. -/
theorem imp_not_alike (ha : a.Denotes m dst) (bad : b.Unresolved m fault) :
    ¬ (Table.core.execute (imp.on a b)).Alike (inTurn .not .or a b) m := by
  have one := imp_of_bad_source ha bad
  by_cases locked : dst ∈ m.memory.locks
  · -- No operand is without a cell because of a lock.
    rw [one.alike_iff (not_or_of_locked ha locked)]
    rintro ⟨same, _⟩
    rw [Except.error.injEq] at same
    subst same
    cases bad
  · rw [one.alike_iff (not_or_of_free ha bad locked)]
    rintro ⟨_, same⟩
    have byte := congrArg (fun m => m.memory.byteAt dst) same
    exact complement_ne _ (byte.trans (Bank.byteAt_store_self ha.contains))

end Operands

/-- **Composite commands are the sequences they stand for.** On any machine and any two operands
    `eqv`, `nand` and `nor` end as `xor`, `and` and `or` followed by `not`. `imp` ends as `not`
    followed by `or` unless the first operand names a cell and the second does not; then `imp` says
    why and leaves the machine as it is, while the sequence reports the lock of the first cell or,
    if there is none, has negated that cell when it fails. -/
theorem composites_are_their_steps (m : Machine) (a b : Operand) :
    (Table.core.execute (eqv.on a b)).Alike (inTurn .xor .not a b) m ∧
    (Table.core.execute (nand.on a b)).Alike (inTurn .and .not a b) m ∧
    (Table.core.execute (nor.on a b)).Alike (inTurn .or .not a b) m ∧
    ((Table.core.execute (imp.on a b)).Alike (inTurn .not .or a b) m ↔
      ¬ ∃ dst fault, a.resolve m = .ok dst ∧ b.resolve m = .error fault) ∧
    ∀ dst fault, a.resolve m = .ok dst → b.resolve m = .error fault →
      (Table.core.execute (imp.on a b)).Ends m (.error fault) m ∧
      (dst ∈ m.memory.locks → (inTurn .not .or a b).Ends m (.error (.cellLocked dst)) m) ∧
      (dst ∉ m.memory.locks → ∃ d after, m.memory.read dst = .ok d ∧
        m.Rewritten dst (~~~d) after ∧ (inTurn .not .or a b).Ends m (.error fault) after) := by
  simp only [Operand.resolve_eq_ok_iff, Operand.resolve_eq_error_iff]
  refine ⟨negated_in_turn (by decide) (by decide) (fun _ _ _ _ => rfl) m a b,
    negated_in_turn (by decide) (by decide) (fun _ _ _ _ => rfl) m a b,
    negated_in_turn (by decide) (by decide) (fun _ _ _ _ => rfl) m a b, ?_, ?_⟩
  · constructor
    · rintro alike ⟨dst, fault, ha, bad⟩
      exact imp_not_alike ha bad alike
    · intro resolved
      refine imp_in_turn fun dst ha => ?_
      rcases b.denotes_or_unresolved m with found | ⟨fault, bad⟩
      · exact found
      · exact absurd ⟨dst, fault, ha, bad⟩ resolved
  · intro dst fault ha bad
    refine ⟨imp_of_bad_source ha bad, not_or_of_locked ha, fun free => ?_⟩
    exact ⟨_, _, Bank.read_of_contains_eq ha.contains, Machine.rewritten_store ha.contains _,
      not_or_of_free ha bad free⟩

end Connective

end ByteMachine
