import ByteMachine.Memory.Bank

/-!
# Cells as a total view of a bank

`Bank.byteAt` shows the byte at an offset, `Bank.store` replaces it; neither asks whether the
offset names a cell or is locked. Inside the bank they are what reading and writing come down to:

* `read_of_contains_eq`: a read that is granted gives `byteAt`;
* `read_store`: a stored byte is read at its own offset and at no other;
* `write_cases`: the three ways in which a write can end; one that is granted gives `store`;
* `writeSlice_cases`: the four ways in which a write of consecutive cells can end. `Bank.laid?`
  says which byte it puts where, and `byteAt_lay` that it puts it there.
-/

namespace ByteMachine

/-- Offsets that are not negative are told apart by their places. -/
theorem Offset.eq_of_place_eq {o p : Offset} (ho : 0 ≤ o) (hp : 0 ≤ p)
    (h : o.toNatClampNeg = p.toNatClampNeg) : o = p := by
  have eo := Int64.cast_toNatClampNeg o ho
  have ep := Int64.cast_toNatClampNeg p hp
  rw [h] at eo
  exact Int64.toInt_inj.mp (eo.symm.trans ep)

namespace Bank

theorem not_contains_iff {b : Bank} {o : Offset} : ¬ b.Contains o ↔ o < 0 ∨ b.size ≤ o := by
  rw [contains_iff, Classical.not_and_iff_not_or_not, Int64.not_le, Int64.not_lt]

/-- The byte at an offset, zero where there is no cell. -/
def byteAt (b : Bank) (o : Offset) : Byte := b.cells[o.toNatClampNeg]?.getD 0

/-- The bank with the byte at an offset replaced, whether locked or not. -/
def store (b : Bank) (o : Offset) (value : Byte) : Bank := b.set o.toNatClampNeg value

section Store

variable {b : Bank} {o p : Offset} {value : Byte}

@[simp] theorem locks_store : (b.store o value).locks = b.locks := rfl

@[simp] theorem length_store : (b.store o value).cells.size = b.cells.size :=
  Array.size_setIfInBounds

@[simp] theorem size_store : (b.store o value).size = b.size := by
  unfold size
  rw [length_store]

@[simp] theorem contains_store : (b.store o value).Contains p ↔ b.Contains p := by
  unfold Contains
  rw [length_store]

@[simp] theorem store_store (later : Byte) :
    (b.store o value).store o later = b.store o later := by
  simp [store, set]

theorem byteAt_store_self (h : b.Contains o) : (b.store o value).byteAt o = value := by
  simp [byteAt, store, set, h.2]

theorem byteAt_store_of_ne (ho : b.Contains o) (hp : b.Contains p) (hne : p ≠ o) :
    (b.store o value).byteAt p = b.byteAt p := by
  have apart : o.toNatClampNeg ≠ p.toNatClampNeg :=
    fun e => hne (Offset.eq_of_place_eq hp.1 ho.1 e.symm)
  simp only [byteAt, store, set]
  rw [Array.getElem?_setIfInBounds_ne apart]

/-! ## Reading and writing through the view -/

theorem read_of_contains_eq (h : b.Contains o) : b.read o = .ok (b.byteAt o) := by
  rw [read_of_contains h, byteAt, Array.getElem?_eq_getElem h.2]
  rfl

/-- A stored byte is read at its own offset, every other offset reads as before. -/
theorem read_store (h : b.Contains o) :
    (b.store o value).read p = if p = o then .ok value else b.read p := by
  split
  case isTrue e =>
    subst e
    rw [read_of_contains_eq (contains_store.mpr h), byteAt_store_self h]
  case isFalse hne =>
    by_cases hp : b.Contains p
    · rw [read_of_contains_eq (contains_store.mpr hp), read_of_contains_eq hp,
        byteAt_store_of_ne h hp hne]
    · rw [read_of_not_contains fun hs => hp (contains_store.mp hs), read_of_not_contains hp,
        size_store]

end Store

/-- **The three ways in which a write can end**: no such cell, a locked cell, a stored byte. -/
theorem write_cases (b : Bank) (o : Offset) (value : Byte) :
    (¬ b.Contains o ∧ (write o value).run b = ⟨.error (.outOfRange o b.size), b, []⟩) ∨
    (b.Contains o ∧ o ∈ b.locks ∧ (write o value).run b = ⟨.error (.cellLocked o), b, []⟩) ∨
    (b.Contains o ∧ o ∉ b.locks ∧ (write o value).run b = ⟨.ok (), b.store o value, []⟩) := by
  by_cases h : b.Contains o
  · by_cases locked : o ∈ b.locks
    · exact .inr (.inl ⟨h, locked, write_of_locked h locked value⟩)
    · exact .inr (.inr ⟨h, locked, write_of_unlocked h locked value⟩)
  · exact .inl ⟨h, write_of_not_contains h value⟩

/-! ## Consecutive cells -/

/-- The byte that `bytes`, laid from `o` on, put at `p`, if they reach it. -/
def laid? (o : Offset) (bytes : List Byte) (p : Offset) : Option Byte :=
  if o ≤ p then bytes[(p.toInt - o.toInt).toNat]? else none

theorem byteAt_lay {b : Bank} {o p : Offset} {bytes : List Byte} (ho : b.Contains o)
    (hp : b.Contains p) (fits : ¬ b.cells.size < o.toNatClampNeg + bytes.length) :
    (b.lay o.toNatClampNeg bytes).byteAt p = (laid? o bytes p).getD (b.byteAt p) := by
  have eo := Int64.cast_toNatClampNeg o ho.1
  have ep := Int64.cast_toNatClampNeg p hp.1
  unfold laid? byteAt lay
  by_cases before : o ≤ p
  · have le := Int64.le_iff_toInt_le.mp before
    have gap : (p.toInt - o.toInt).toNat = p.toNatClampNeg - o.toNatClampNeg := by omega
    rw [if_pos before, gap]
    by_cases reach : p.toNatClampNeg - o.toNatClampNeg < bytes.length
    · have inside := getElem?_overlay_inside b.cells o.toNatClampNeg bytes reach (by omega)
      rw [show o.toNatClampNeg + (p.toNatClampNeg - o.toNatClampNeg) = p.toNatClampNeg by omega]
        at inside
      rw [inside, List.getElem?_eq_getElem reach]
      rfl
    · rw [List.getElem?_eq_none (by omega), getElem?_overlay_of_outside _ _ _ (.inr (by omega))]
      rfl
  · have lt := Int64.lt_iff_toInt_lt.mp (Int64.not_le.mp before)
    rw [if_neg before, getElem?_overlay_of_outside _ _ _ (.inl (by omega))]
    rfl

/-- **The four ways in which a write of consecutive cells can end**: no such first cell, the end
    of the bank, a locked cell, the bytes laid over the cells. -/
theorem writeSlice_cases (b : Bank) (o : Offset) (bytes : List Byte) :
    let stop := o.toNatClampNeg + bytes.length
    (¬ b.Contains o ∧ (writeSlice o bytes).run b = ⟨.error (.outOfRange o b.size), b, []⟩) ∨
    (b.Contains o ∧ b.cells.size < stop ∧ (writeSlice o bytes).run b =
      ⟨.error (.outOfRange (Int64.ofNat stop - 1) b.size), b, []⟩) ∨
    (b.Contains o ∧ ¬ b.cells.size < stop ∧
      ∃ locked, b.locks.first? o (Int64.ofNat stop) = some locked ∧
        (writeSlice o bytes).run b = ⟨.error (.cellLocked locked), b, []⟩) ∨
    (b.Contains o ∧ ¬ b.cells.size < stop ∧ b.locks.first? o (Int64.ofNat stop) = none ∧
      (writeSlice o bytes).run b = ⟨.ok (), b.lay o.toNatClampNeg bytes, []⟩) := by
  intro stop
  by_cases inside : b.Contains o
  · by_cases long : b.cells.size < stop
    · exact .inr (.inl ⟨inside, long, writeSlice_of_overrun inside long⟩)
    · refine .inr (.inr ?_)
      cases hit : b.locks.first? o (Int64.ofNat stop) with
      | some locked => exact .inl ⟨inside, long, locked, rfl, writeSlice_of_locked inside long hit⟩
      | none => exact .inr ⟨inside, long, rfl, writeSlice_of_free inside long hit⟩
  · exact .inl ⟨inside, writeSlice_of_not_contains inside bytes⟩

end Bank

end ByteMachine
