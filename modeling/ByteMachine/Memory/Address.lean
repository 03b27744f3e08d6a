import ByteMachine.Text.Decimal

/-!
# Addresses

A memory cell is named by the bank it lies in and its offset inside that bank. Offsets are signed
64-bit words: a negative one names no cell, and stepping past either end of the word wraps
around (`offset_add`), which leaves the bank as it is (`bank_add`).

Addresses are ordered by bank and then by offset.
-/

namespace ByteMachine

open Text

/-- The content of one memory cell or one small register. -/
abbrev Byte := UInt8

/-- Selects one memory bank. -/
abbrev BankId := Int16

/-- The position of a cell in its bank, and also the number of cells of a bank. -/
abbrev Offset := Int64

/-- A cell of some bank. -/
structure Address where
  /-- The bank that holds the cell. -/
  bank : BankId
  /-- The cell's position in that bank. -/
  offset : Offset
  deriving DecidableEq, Repr

namespace Address

/-- An address as `bank:offset`. -/
def text (a : Address) : String :=
  decimal a.bank.toInt ++ ":" ++ decimal a.offset.toInt

/-- The address can name a cell in a bank of `size` cells. -/
def Fits (a : Address) (size : Offset) : Prop :=
  0 ≤ a.offset ∧ a.offset < size

instance (a : Address) (size : Offset) : Decidable (a.Fits size) :=
  inferInstanceAs (Decidable (_ ∧ _))

/-- The cell `step` places further on in the same bank, wrapping around at 64 bits. -/
def add (a : Address) (step : Offset) : Address :=
  { a with offset := a.offset + step }

instance : HAdd Address Offset Address := ⟨add⟩

@[simp] theorem bank_add (a : Address) (step : Offset) : (a + step).bank = a.bank := rfl

@[simp] theorem offset_add (a : Address) (step : Offset) :
    (a + step).offset = a.offset + step := rfl

/-- By bank, and by offset inside one bank. -/
instance : Ord Address := ⟨compareLex (compareOn bank) (compareOn offset)⟩

instance : Std.TransOrd Address :=
  inferInstanceAs (Std.TransCmp (compareLex (compareOn bank) (compareOn offset)))

end Address

end ByteMachine
