import ByteMachine.Instruction.Opcode
import Std.Data.TreeMap

/-!
# Names of opcodes

Pairs of a name and an opcode, found from either side. The two directions are kept apart;
`Names.insert?` is the only way to enter a pair, and it refuses one whose name or opcode is
already in use (`insert?_eq_none`), so nothing is ever overwritten (`insert?_eq_some`).
-/

namespace ByteMachine

/-- Names and opcodes, each to be found by the other. -/
structure Names where
  /-- What each name stands for. -/
  byMnemonic : Std.TreeMap String Opcode
  /-- What each opcode is called. -/
  byOpcode : Std.TreeMap Opcode String

namespace Names

/-- Nothing is named. -/
def empty : Names := ⟨∅, ∅⟩

/-- The opcode with a given name. -/
def opcode? (n : Names) (mnemonic : String) : Option Opcode := n.byMnemonic[mnemonic]?

/-- The name of an opcode. -/
def mnemonic? (n : Names) (opcode : Opcode) : Option String := n.byOpcode[opcode]?

/-- Enters a pair, unless its name or its opcode is in use. -/
def insert? (n : Names) (mnemonic : String) (opcode : Opcode) : Option Names :=
  if (n.opcode? mnemonic).isSome || (n.mnemonic? opcode).isSome then none
  else some ⟨n.byMnemonic.insert mnemonic opcode, n.byOpcode.insert opcode mnemonic⟩

@[simp] theorem opcode?_empty (mnemonic : String) : empty.opcode? mnemonic = none := by
  simp [opcode?, empty]

@[simp] theorem mnemonic?_empty (opcode : Opcode) : empty.mnemonic? opcode = none := by
  simp [mnemonic?, empty]

theorem insert?_eq_none {n : Names} {mnemonic : String} {opcode : Opcode} :
    n.insert? mnemonic opcode = none ↔
      (n.opcode? mnemonic).isSome ∨ (n.mnemonic? opcode).isSome := by
  unfold insert?
  split
  case isTrue taken => exact iff_of_true rfl (by simpa only [Bool.or_eq_true] using taken)
  case isFalse free => exact iff_of_false nofun (by simpa only [Bool.or_eq_true] using free)

/-- A pair that is entered was free on both sides, and nothing else changes. -/
theorem insert?_eq_some {n after : Names} {mnemonic : String} {opcode : Opcode}
    (h : n.insert? mnemonic opcode = some after) :
    (n.opcode? mnemonic = none ∧ n.mnemonic? opcode = none) ∧
      (∀ key, after.opcode? key = if mnemonic = key then some opcode else n.opcode? key) ∧
      ∀ key, after.mnemonic? key = if opcode = key then some mnemonic else n.mnemonic? key := by
  unfold insert? at h
  split at h
  case isTrue => cases h
  case isFalse free =>
    cases h
    refine ⟨by simpa using free, fun key => ?_, fun key => ?_⟩
    · simp [opcode?, Std.TreeMap.getElem?_insert]
    · simp [mnemonic?, Std.TreeMap.getElem?_insert]

end Names

end ByteMachine
