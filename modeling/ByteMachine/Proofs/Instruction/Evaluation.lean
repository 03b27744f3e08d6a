import ByteMachine.Proofs.Instruction.Resolution
import ByteMachine.Proofs.Memory.Cell

/-!
# What an address names and what it stands for

An address operand can be resolved to a cell of a machine's memory, or evaluated to the byte of
that cell. The two ways share no step: resolving compares the bank with the machine's own and the
offset with the size as signed words; evaluating asks a look-up function for the bank and that bank
for the place of the offset.

* `value_of_denotes`, `value_of_unresolved`: evaluating through the machine, for each way in which
  resolving can end.
* `value_eq_resolve_bind`: so evaluating is resolving and then reading, and what has been resolved
  can always be read.

`resolve_agrees_value` says what follows for the results and the faults, and that a registry which
holds the machine's memory under the machine's number gives the same.
-/

namespace ByteMachine

namespace Machine

variable {m : Machine} {id : BankId}

theorem bank?_self (m : Machine) : m.bank? m.bankId = some m.memory := if_pos rfl

theorem bank?_of_ne (foreign : id ≠ m.bankId) : m.bank? id = none := if_neg foreign

end Machine

namespace Operand

variable {m : Machine} {a : Address} {o : Offset} {fault : Fault}

/-! ## 1. Evaluating what has been resolved -/

/-- An operand that names a cell stands for the byte of that cell. -/
theorem value_of_denotes {x : Operand} (h : x.Denotes m o) :
    x.value m.bank? = .ok (m.memory.byteAt o) := by
  cases h with
  | @cell a own low high =>
    have found : m.bank? a.bank = some m.memory := by rw [own, m.bank?_self]
    show m.bank?.readAt a = _
    rw [Banks.readAt_of_some found,
      Bank.read_of_contains_eq (Bank.contains_iff.mpr ⟨low, high⟩)]

/-- An address that names no cell stands for no byte, for the same reason. -/
theorem value_of_unresolved (h : (address a).Unresolved m fault) :
    (address a).value m.bank? = .error fault := by
  show m.bank?.readAt a = _
  cases h with
  | foreign other => exact Banks.readAt_of_none (Machine.bank?_of_ne other)
  | outside own out =>
    have found : m.bank? a.bank = some m.memory := by rw [own, m.bank?_self]
    rw [Banks.readAt_of_some found, Bank.read_of_not_contains (Bank.not_contains_iff.mpr out)]

/-- **Evaluating an address is resolving it and then reading the cell.** -/
theorem value_eq_resolve_bind (m : Machine) (a : Address) :
    (address a).value m.bank? = (address a).resolve m >>= m.memory.read := by
  rcases denotes_or_unresolved m (address a) with ⟨o, named⟩ | ⟨fault, unnamed⟩
  · rw [value_of_denotes named, resolve_of_denotes named]
    exact (Bank.read_of_contains_eq named.contains).symm
  · rw [value_of_unresolved unnamed, resolve_of_unresolved unnamed]
    rfl

/-! ## 2. The two ways agree -/

theorem denotes_address_iff :
    (address a).Denotes m o ↔ o = a.offset ∧ ∃ byte, (address a).value m.bank? = .ok byte := by
  constructor
  · intro named
    refine ⟨?_, _, value_of_denotes named⟩
    cases named
    rfl
  · rintro ⟨rfl, byte, read⟩
    rcases denotes_or_unresolved m (address a) with ⟨o, named⟩ | ⟨fault, unnamed⟩
    · cases named with
      | cell own low high => exact .cell own low high
    -- A refused address could not have been evaluated either.
    · rw [value_of_unresolved unnamed] at read
      cases read

theorem unresolved_address_iff_value :
    (address a).Unresolved m fault ↔ (address a).value m.bank? = .error fault := by
  refine ⟨value_of_unresolved, fun failed => ?_⟩
  rcases denotes_or_unresolved m (address a) with ⟨o, named⟩ | ⟨cause, unnamed⟩
  · rw [value_of_denotes named] at failed
    cases failed
  · rw [value_of_unresolved unnamed, Except.error.injEq] at failed
    exact failed ▸ unnamed

/-- The two reasons for which an address names no cell. -/
theorem unresolved_address_iff :
    (address a).Unresolved m fault ↔
      (a.bank ≠ m.bankId ∧ fault = .unknownBank a.bank) ∨
      (a.bank = m.bankId ∧ (a.offset < 0 ∨ m.memory.size ≤ a.offset) ∧
        fault = .outOfRange a.offset m.memory.size) := by
  constructor
  · intro h
    cases h with
    | foreign other => exact .inl ⟨other, rfl⟩
    | outside own out => exact .inr ⟨own, out, rfl⟩
  · rintro (⟨other, rfl⟩ | ⟨own, out, rfl⟩)
    · exact .foreign other
    · exact .outside own out

/-- **Resolving and evaluating an address agree**, on every machine. An address resolves exactly if
    it can be evaluated, to its own offset, and its value is the byte of that cell. They fail for
    the same reason: the bank is not the machine's own or, if it is, the offset is outside it.
    Every registry that holds the machine's memory under the machine's number evaluates the
    addresses of that bank in the same way. -/
theorem resolve_agrees_value (m : Machine) (a : Address) :
    (∀ o, (address a).resolve m = .ok o ↔
      o = a.offset ∧ ∃ byte, (address a).value m.bank? = .ok byte) ∧
    (∀ o, (address a).resolve m = .ok o →
      (address a).value m.bank? = ((Machine.valueAt o).run m).result) ∧
    (∀ fault, (address a).resolve m = .error fault ↔ (address a).value m.bank? = .error fault) ∧
    (∀ fault, (address a).resolve m = .error fault ↔
      (a.bank ≠ m.bankId ∧ fault = .unknownBank a.bank) ∨
      (a.bank = m.bankId ∧ (a.offset < 0 ∨ m.memory.size ≤ a.offset) ∧
        fault = .outOfRange a.offset m.memory.size)) ∧
    ∀ r : Registry, r.bank? m.bankId = some m.memory → a.bank = m.bankId →
      (address a).value r.bank? = (address a).value m.bank? := by
  refine ⟨fun o => ?_, fun o resolved => ?_, fun fault => ?_, fun fault => ?_,
    fun r holds own => Banks.readAt_congr ?_⟩
  · rw [resolve_eq_ok_iff]
    exact denotes_address_iff
  · rw [value_eq_resolve_bind, resolved, Machine.run_valueAt]
    rfl
  · rw [resolve_eq_error_iff]
    exact unresolved_address_iff_value
  · rw [resolve_eq_error_iff]
    exact unresolved_address_iff
  · rw [own, holds, m.bank?_self]

/-- It holds of a machine of four cells whose memory answers to the number 2 and stands in a
    registry too: the last cell is found, the offset behind it is refused by both. -/
theorem resolve_agrees_value_shared_bank :
    ∃ m, Machine.create { memorySize := 4, bankId := 2 } = .ok m ∧
      let r := Registry.empty.replace 2 m.memory
      r.bank? m.bankId = some m.memory ∧
      (address ⟨2, 3⟩).resolve m = .ok 3 ∧ (address ⟨2, 3⟩).value r.bank? = .ok 0 ∧
      (address ⟨2, 4⟩).resolve m = .error (.outOfRange 4 4) ∧
      (address ⟨2, 4⟩).value r.bank? = .error (.outOfRange 4 4) := by
  obtain ⟨m, made, own, inside, byte, outside⟩ :
      ∃ m, Machine.create { memorySize := 4, bankId := 2 } = .ok m ∧ m.bankId = 2 ∧
        (address ⟨2, 3⟩).resolve m = .ok 3 ∧ ((Machine.valueAt 3).run m).result = .ok 0 ∧
        (address ⟨2, 4⟩).resolve m = .error (.outOfRange 4 4) := ⟨_, rfl, rfl, rfl, rfl, rfl⟩
  have holds : (Registry.empty.replace 2 m.memory).bank? m.bankId = some m.memory := by
    rw [Registry.bank?_replace, own, if_pos rfl]
  obtain ⟨_, read, _, _, through⟩ := resolve_agrees_value m ⟨2, 3⟩
  obtain ⟨_, _, faults, _, through'⟩ := resolve_agrees_value m ⟨2, 4⟩
  refine ⟨m, made, holds, inside, ?_, outside, ?_⟩
  · rw [through _ holds own.symm, read 3 inside, byte]
  · rw [through' _ holds own.symm]
    exact (faults _).mp outside

end Operand

end ByteMachine
