import ByteMachine.Memory.Address

/-!
# Stepping from cell to cell

A step adds a signed 64-bit word to an offset and wraps around, while the test whether an address
fits compares signed numbers. So a long step could in principle leave a bank at one end and come
back in at the other. It does not, for any bank and any step:

* `toInt_offset_add_cases`: from an offset that is not negative no step passes the least word. It
  is exact, or it passes the greatest word, and then it comes out below zero.
* `toInt_offset_add_of_nonneg`: so a step that comes out at zero or above is exact.
* `fits_add_iff`: a step from a cell leads to a cell of the same bank exactly if the sum of the
  integers is the place of one.

`stepping_never_wraps_inside` puts these together with `add_add`: two steps in turn are one.
-/

namespace ByteMachine.Address

variable {a : Address} {x size : Offset}

/-! ## 1. Offsets as integers -/

theorem fits_iff_toInt :
    a.Fits size ↔ 0 ≤ a.offset.toInt ∧ a.offset.toInt < size.toInt := by
  unfold Fits
  rw [Int64.le_iff_toInt_le, Int64.lt_iff_toInt_lt]
  rfl

/-- The offset behind a step is the sum of the integers, wrapped around at 64 bits. -/
theorem toInt_offset_add (a : Address) (x : Offset) :
    (a + x).offset.toInt = (a.offset.toInt + x.toInt).bmod Int64.size := by
  rw [offset_add, Int64.toInt_add]

/-- Two steps in turn are one step by their sum, whatever wraps around on the way. -/
theorem add_add (a : Address) (x y : Offset) : a + x + y = a + (x + y) := by
  have offsets : (a + x + y).offset = (a + (x + y)).offset := Int64.add_assoc a.offset x y
  exact congrArg (Address.mk a.bank) offsets

/-! ## 2. One step from inside a bank -/

/-- **The two ways in which a step from an offset that is not negative can end**: at the sum, or,
    past the greatest word, below zero. -/
theorem toInt_offset_add_cases (low : 0 ≤ a.offset.toInt) :
    (a + x).offset.toInt = a.offset.toInt + x.toInt ∨
      Int64.maxValue.toInt < a.offset.toInt + x.toInt ∧ (a + x).offset.toInt < 0 := by
  have start := a.offset.toInt_lt
  have least := x.le_toInt
  have greatest := x.toInt_lt
  have width : (Int64.size : Int) = 18446744073709551616 := rfl
  rw [toInt_offset_add, Int64.toInt_maxValue]
  by_cases past : a.offset.toInt + x.toInt < 9223372036854775808
  · exact .inl (Int.bmod_eq_of_le (by omega) (by omega))
  · -- One turn of the word brings the sum back into it, on the negative side.
    have turned : (a.offset.toInt + x.toInt).bmod Int64.size =
        a.offset.toInt + x.toInt - Int64.size := by
      rw [← Int.sub_bmod_right]
      exact Int.bmod_eq_of_le (by omega) (by omega)
    rw [turned]
    exact .inr ⟨by omega, by omega⟩

theorem toInt_offset_add_of_nonneg (low : 0 ≤ a.offset.toInt) (above : 0 ≤ (a + x).offset.toInt) :
    (a + x).offset.toInt = a.offset.toInt + x.toInt := by
  rcases toInt_offset_add_cases low with sum | ⟨_, below⟩
  · exact sum
  · omega

/-- **A step from a cell leads to a cell exactly if the sum of the integers is the place of one.** -/
theorem fits_add_iff (inside : a.Fits size) :
    (a + x).Fits size ↔
      0 ≤ a.offset.toInt + x.toInt ∧ a.offset.toInt + x.toInt < size.toInt := by
  have low := (fits_iff_toInt.mp inside).1
  rw [fits_iff_toInt]
  rcases toInt_offset_add_cases (x := x) low with sum | ⟨past, below⟩
  · rw [sum]
  · have top := size.toInt_le
    constructor
    · intro reached
      omega
    · intro place
      omega

/-! ## 3. Steps of any length -/

/-- **No step comes back into a bank by wrapping around.** Steps add up modulo 2^64 and stay in
    their bank; one from a cell fits exactly if the sum of the integers does, and is that sum if it
    fits. -/
theorem stepping_never_wraps_inside (a : Address) (x y : Offset) :
    a + x + y = a + (x + y) ∧ (a + x).bank = a.bank ∧
    (a + x).offset.toInt = (a.offset.toInt + x.toInt).bmod Int64.size ∧
    ∀ size, a.Fits size →
      ((a + x).Fits size ↔
        0 ≤ a.offset.toInt + x.toInt ∧ a.offset.toInt + x.toInt < size.toInt) ∧
      ((a + x).Fits size → (a + x).offset.toInt = a.offset.toInt + x.toInt) := by
  refine ⟨add_add a x y, bank_add a x, toInt_offset_add a x, fun size inside => ?_⟩
  refine ⟨fits_add_iff inside, fun reached => ?_⟩
  exact toInt_offset_add_of_nonneg (fits_iff_toInt.mp inside).1 (fits_iff_toInt.mp reached).1

/-- The longest step from the last cell of the greatest bank wraps around and fits no more. A second
    one comes back into the bank, two cells before the last: the two are the step by -2. -/
theorem stepping_never_wraps_inside_last_cell :
    let top := Int64.maxValue
    let last : Address := ⟨0, top - 1⟩
    last.Fits top ∧ ¬ (last + top).Fits top ∧ last + top + top = last + (-2 : Offset) ∧
      (last + (-2 : Offset)).Fits top := by
  intro top last
  have inside : last.Fits top := by decide
  have far := stepping_never_wraps_inside last top top
  have near := stepping_never_wraps_inside last (-2) 0
  have turn : top + top = -2 := by decide
  refine ⟨inside, fun reached => ?_, turn ▸ far.1, (near.2.2.2 top inside).1.mpr (by decide)⟩
  exact absurd ((far.2.2.2 top inside).1.mp reached) (by decide)

end ByteMachine.Address
