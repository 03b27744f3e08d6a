import ByteMachine.Instruction.Command

/-!
# Which cell an operand names

Two relations say what an operand stands for in a machine, each by a list of rules:
`Operand.Denotes` for the cell that it names, `Operand.Unresolved` for the reason why it names
none. Looking an operand up gives exactly these (`resolve_eq_ok_iff`, `resolve_eq_error_iff`).
-/

namespace ByteMachine.Operand

/-- The operand names the cell at an offset of the machine's memory. -/
inductive Denotes (m : Machine) : Operand → Offset → Prop where
  | cell {a : Address} (own : a.bank = m.bankId) (low : 0 ≤ a.offset)
      (high : a.offset < m.memory.size) : Denotes m (.address a) a.offset

/-- The operand names no cell of the machine's memory, for the reason given. -/
inductive Unresolved (m : Machine) : Operand → Fault → Prop where
  | immediate (value : Byte) : Unresolved m (.immediate value) .notAddressable
  | foreign {a : Address} (other : a.bank ≠ m.bankId) :
      Unresolved m (.address a) (.unknownBank a.bank)
  | outside {a : Address} (own : a.bank = m.bankId)
      (out : a.offset < 0 ∨ m.memory.size ≤ a.offset) :
      Unresolved m (.address a) (.outOfRange a.offset m.memory.size)

section Resolve

variable {m : Machine} {x : Operand} {o : Offset} {fault : Fault}

theorem Denotes.contains (h : x.Denotes m o) : m.memory.Contains o := by
  cases h with
  | cell own low high => exact Bank.contains_iff.mpr ⟨low, high⟩

theorem resolve_of_denotes (h : x.Denotes m o) : x.resolve m = .ok o := by
  cases h with
  | @cell a own low high =>
    have inside : a.Fits m.memory.size := ⟨low, high⟩
    simp [resolve, own, inside]

theorem resolve_of_unresolved (h : x.Unresolved m fault) : x.resolve m = .error fault := by
  cases h with
  | immediate value => rfl
  | foreign other => simp [resolve, other]
  | @outside a own out =>
    have misfit : ¬ a.Fits m.memory.size := fun fits =>
      out.elim (Int64.not_lt.mpr fits.1) (Int64.not_le.mpr fits.2)
    simp [resolve, own, misfit]

/-- An operand names a cell or there is a reason why it names none. -/
theorem denotes_or_unresolved (m : Machine) (x : Operand) :
    (∃ o, x.Denotes m o) ∨ ∃ fault, x.Unresolved m fault := by
  cases x with
  | immediate value => exact .inr ⟨_, .immediate value⟩
  | address a =>
    by_cases own : a.bank = m.bankId
    · by_cases low : 0 ≤ a.offset
      · by_cases high : a.offset < m.memory.size
        · exact .inl ⟨_, .cell own low high⟩
        · exact .inr ⟨_, .outside own (.inr (Int64.not_lt.mp high))⟩
      · exact .inr ⟨_, .outside own (.inl (Int64.not_le.mp low))⟩
    · exact .inr ⟨_, .foreign own⟩

theorem resolve_eq_ok_iff : x.resolve m = .ok o ↔ x.Denotes m o := by
  refine ⟨fun h => ?_, resolve_of_denotes⟩
  rcases denotes_or_unresolved m x with ⟨p, hp⟩ | ⟨fault, hf⟩
  · rw [resolve_of_denotes hp, Except.ok.injEq] at h
    exact h ▸ hp
  · rw [resolve_of_unresolved hf] at h
    cases h

theorem resolve_eq_error_iff : x.resolve m = .error fault ↔ x.Unresolved m fault := by
  refine ⟨fun h => ?_, resolve_of_unresolved⟩
  rcases denotes_or_unresolved m x with ⟨o, ho⟩ | ⟨cause, hc⟩
  · rw [resolve_of_denotes ho] at h
    cases h
  · rw [resolve_of_unresolved hc, Except.error.injEq] at h
    exact h ▸ hc

end Resolve

end ByteMachine.Operand
