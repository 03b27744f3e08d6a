import ByteMachine.Action.Basic
import ByteMachine.Memory.LockSet

/-!
# Memory banks

A bank is a fixed number of byte cells, some of which are write-locked. Locked cells can be read
but not written.

* `Bank.create`, `Bank.read`, `Bank.write`, `Bank.lock`, `Bank.unlock`, `Bank.isLocked`: one cell
  at a time; an offset outside the bank is refused.
* `Bank.writeSlice`: consecutive cells at once, all of them or none.

A bank has fewer than 2^63 cells, so its size is an offset (`toInt_size`), and an offset names a
cell exactly if it is at least zero and less than the size (`Bank.contains_iff`).
-/

namespace ByteMachine

/-- Byte cells with write-locks on some of them. -/
structure Bank where
  /-- The contents, by offset. -/
  cells : Array Byte
  /-- The offsets of the write-locked cells. -/
  locks : LockSet
  /-- There are fewer than 2^63 cells, so that every cell's offset fits a signed word. -/
  size_lt : cells.size < 9223372036854775808
  deriving DecidableEq

namespace Bank

/-! ## 1. Cells and offsets -/

/-- The number of cells. -/
def size (b : Bank) : Offset := Int64.ofNat b.cells.size

/-- The offset names a cell of the bank. -/
def Contains (b : Bank) (o : Offset) : Prop := 0 ≤ o ∧ o.toNatClampNeg < b.cells.size

instance (b : Bank) (o : Offset) : Decidable (b.Contains o) :=
  inferInstanceAs (Decidable (_ ∧ _))

/-- The cell that an offset names, or the report that it names none. -/
def index (b : Bank) (o : Offset) : Except Fault (Fin b.cells.size) :=
  if h : b.Contains o then .ok ⟨o.toNatClampNeg, h.2⟩ else .error (.outOfRange o b.size)

theorem toInt_size (b : Bank) : b.size.toInt = b.cells.size :=
  Int64.toInt_ofNat_of_lt b.size_lt

/-- An offset names a cell exactly if it is at least zero and less than the size. -/
theorem contains_iff {b : Bank} {o : Offset} : b.Contains o ↔ 0 ≤ o ∧ o < b.size := by
  refine and_congr_right fun h => ?_
  rw [Int64.lt_iff_toInt_lt, toInt_size, ← Int64.cast_toNatClampNeg o h]
  exact Int.ofNat_lt.symm

theorem index_of_contains {b : Bank} {o : Offset} (h : b.Contains o) :
    b.index o = .ok ⟨o.toNatClampNeg, h.2⟩ := dif_pos h

theorem index_of_not_contains {b : Bank} {o : Offset} (h : ¬ b.Contains o) :
    b.index o = .error (.outOfRange o b.size) := dif_neg h

/-! ## 2. Single cells -/

/-- A bank of `size` zeroed, unlocked cells. -/
def create (size : Offset) : Except Fault Bank :=
  if 0 ≤ size then
    .ok {
      cells := Array.replicate size.toNatClampNeg 0
      locks := .empty
      size_lt := by simpa using size.toNatClampNeg_lt }
  else
    .error (.invalidSize size)

/-- The bank with the content of one cell replaced, whether locked or not; there may be no cell at
    that place. -/
def set (b : Bank) (i : Nat) (value : Byte) : Bank :=
  { b with cells := b.cells.setIfInBounds i value, size_lt := by simpa using b.size_lt }

/-- The content of a cell. Locks do not matter. -/
def read (b : Bank) (o : Offset) : Except Fault Byte := do
  let i ← b.index o
  return b.cells[i]

/-- The cell is write-locked. -/
def isLocked (b : Bank) (o : Offset) : Except Fault Bool := do
  let _ ← b.index o
  return decide (o ∈ b.locks)

/-- Finds the place of the cell that an offset names. -/
def place (o : Offset) : Action Bank Nat := .query fun b => (b.index o).map (·.val)

/-- Refuses a locked cell. -/
def requireUnlocked (o : Offset) : Action Bank Unit :=
  .query fun b => if o ∈ b.locks then .error (.cellLocked o) else .ok ()

/-- Replaces the content of an unlocked cell. -/
def write (o : Offset) (value : Byte) : Action Bank Unit := do
  let i ← place o
  requireUnlocked o
  .modify (·.set i value)

/-- Write-locks a cell; a locked cell stays locked. -/
def lock (o : Offset) : Action Bank Unit := do
  let _ ← place o
  .modify fun b => { b with locks := b.locks.insert o }

/-- Takes the write-lock off a cell; an unlocked cell stays unlocked. -/
def unlock (o : Offset) : Action Bank Unit := do
  let _ ← place o
  .modify fun b => { b with locks := b.locks.erase o }

/-! ## 3. Consecutive cells -/

/-- The cells with `bytes` laid over them from place `start` on; what reaches past the end is
    dropped. -/
def overlay (cells : Array Byte) (start : Nat) : List Byte → Array Byte
  | [] => cells
  | byte :: bytes => overlay (cells.setIfInBounds start byte) (start + 1) bytes

@[simp] theorem size_overlay (cells : Array Byte) (start : Nat) (bytes : List Byte) :
    (overlay cells start bytes).size = cells.size := by
  induction bytes generalizing cells start with
  | nil => rfl
  | cons byte bytes ih => simp [overlay, ih]

/-- Cells outside the bytes keep their contents. -/
theorem getElem?_overlay_of_outside (cells : Array Byte) (start : Nat) (bytes : List Byte) {i : Nat}
    (h : i < start ∨ start + bytes.length ≤ i) : (overlay cells start bytes)[i]? = cells[i]? := by
  induction bytes generalizing cells start with
  | nil => rfl
  | cons byte bytes ih =>
    simp only [List.length_cons] at h
    rw [overlay, ih _ _ (by omega), Array.getElem?_setIfInBounds_ne (by omega)]

/-- The bytes lie in the cells from `start` on. -/
theorem getElem?_overlay_inside (cells : Array Byte) (start : Nat) (bytes : List Byte) {k : Nat}
    (h : k < bytes.length) (fits : start + bytes.length ≤ cells.size) :
    (overlay cells start bytes)[start + k]? = some bytes[k] := by
  induction bytes generalizing cells start k with
  | nil => cases h
  | cons byte bytes ih =>
    simp only [List.length_cons] at h fits
    cases k with
    | zero =>
      rw [overlay, getElem?_overlay_of_outside _ _ _ (.inl (by omega)), Nat.add_zero,
        Array.getElem?_setIfInBounds_self_of_lt (by omega)]
      rfl
    | succ k =>
      rw [overlay, show start + (k + 1) = start + 1 + k by omega,
        ih _ _ (by omega) (by simp only [Array.size_setIfInBounds]; omega)]
      rfl

/-- The bank with `bytes` laid over its cells from place `start` on, whether locked or not. -/
def lay (b : Bank) (start : Nat) (bytes : List Byte) : Bank :=
  { b with cells := overlay b.cells start bytes, size_lt := by simpa using b.size_lt }

/-- Refuses cells that end at `stop` if the bank ends before. -/
def requireEnd (stop : Nat) : Action Bank Unit := .query fun b =>
  if b.cells.size < stop then .error (.outOfRange (Int64.ofNat stop - 1) b.size) else .ok ()

/-- Refuses the cells from `o` on and before `stop` if one of them is locked. -/
def requireAllUnlocked (o stop : Offset) : Action Bank Unit := .query fun b =>
  match b.locks.first? o stop with
  | some locked => .error (.cellLocked locked)
  | none => .ok ()

/-- Replaces consecutive cells from `o` on: all of them, or none if one of them is outside the
    bank or locked. The first cell is looked up even if there is nothing to write. -/
def writeSlice (o : Offset) (bytes : List Byte) : Action Bank Unit := do
  let start ← place o
  let stop := start + bytes.length
  requireEnd stop
  requireAllUnlocked o (Int64.ofNat stop)
  .modify (·.lay start bytes)

/-! ## 4. Views -/

/-- The non-zero cells with their offsets, in increasing order. -/
def occupied (b : Bank) : List (Nat × Byte) :=
  b.cells.toList.zipIdx.filterMap fun (value, i) => if value = 0 then none else some (i, value)

/-! ## 5. Laws of the single operations -/

section Laws

variable {b : Bank} {o : Offset}

theorem read_of_contains (h : b.Contains o) :
    b.read o = .ok b.cells[(⟨o.toNatClampNeg, h.2⟩ : Fin b.cells.size)] := by
  simp [read, index_of_contains h, bind, Except.bind, pure, Except.pure]

theorem read_of_not_contains (h : ¬ b.Contains o) : b.read o = .error (.outOfRange o b.size) := by
  simp [read, index_of_not_contains h, bind, Except.bind]

theorem isLocked_of_contains (h : b.Contains o) : b.isLocked o = .ok (decide (o ∈ b.locks)) := by
  simp [isLocked, index_of_contains h, bind, Except.bind, pure, Except.pure]

theorem isLocked_of_not_contains (h : ¬ b.Contains o) :
    b.isLocked o = .error (.outOfRange o b.size) := by
  simp [isLocked, index_of_not_contains h, bind, Except.bind]

theorem place_of_contains (h : b.Contains o) :
    (place o).run b = ⟨.ok o.toNatClampNeg, b, []⟩ := by
  rw [place, Action.run_query, index_of_contains h]
  rfl

theorem place_of_not_contains (h : ¬ b.Contains o) :
    (place o).run b = ⟨.error (.outOfRange o b.size), b, []⟩ := by
  rw [place, Action.run_query, index_of_not_contains h]
  rfl

theorem requireUnlocked_of_mem (locked : o ∈ b.locks) :
    (requireUnlocked o).run b = ⟨.error (.cellLocked o), b, []⟩ := by
  rw [requireUnlocked, Action.run_query, if_pos locked]

theorem requireUnlocked_of_not_mem (free : o ∉ b.locks) :
    (requireUnlocked o).run b = ⟨.ok (), b, []⟩ := by
  rw [requireUnlocked, Action.run_query, if_neg free]

theorem write_of_not_contains (h : ¬ b.Contains o) (value : Byte) :
    (write o value).run b = ⟨.error (.outOfRange o b.size), b, []⟩ :=
  Action.bind_of_error (place_of_not_contains h)

theorem write_of_locked (h : b.Contains o) (locked : o ∈ b.locks) (value : Byte) :
    (write o value).run b = ⟨.error (.cellLocked o), b, []⟩ := by
  rw [write, Action.bind_of_silent (place_of_contains h)]
  exact Action.bind_of_error (requireUnlocked_of_mem locked)

theorem write_of_unlocked (h : b.Contains o) (free : o ∉ b.locks) (value : Byte) :
    (write o value).run b = ⟨.ok (), b.set o.toNatClampNeg value, []⟩ := by
  rw [write, Action.bind_of_silent (place_of_contains h)]
  exact Action.bind_of_silent (requireUnlocked_of_not_mem free)

theorem lock_of_contains (h : b.Contains o) :
    (lock o).run b = ⟨.ok (), { b with locks := b.locks.insert o }, []⟩ :=
  Action.bind_of_silent (place_of_contains h)

theorem lock_of_not_contains (h : ¬ b.Contains o) :
    (lock o).run b = ⟨.error (.outOfRange o b.size), b, []⟩ :=
  Action.bind_of_error (place_of_not_contains h)

theorem unlock_of_contains (h : b.Contains o) :
    (unlock o).run b = ⟨.ok (), { b with locks := b.locks.erase o }, []⟩ :=
  Action.bind_of_silent (place_of_contains h)

theorem unlock_of_not_contains (h : ¬ b.Contains o) :
    (unlock o).run b = ⟨.error (.outOfRange o b.size), b, []⟩ :=
  Action.bind_of_error (place_of_not_contains h)

/-! ## 6. Laws of the write of consecutive cells -/

variable {bytes : List Byte}

theorem requireEnd_of_lt {stop : Nat} (long : b.cells.size < stop) :
    (requireEnd stop).run b =
      ⟨.error (.outOfRange (Int64.ofNat stop - 1) b.size), b, []⟩ := by
  rw [requireEnd, Action.run_query, if_pos long]

theorem requireEnd_of_not_lt {stop : Nat} (fits : ¬ b.cells.size < stop) :
    (requireEnd stop).run b = ⟨.ok (), b, []⟩ := by
  rw [requireEnd, Action.run_query, if_neg fits]

theorem writeSlice_of_not_contains (h : ¬ b.Contains o) (bytes : List Byte) :
    (writeSlice o bytes).run b = ⟨.error (.outOfRange o b.size), b, []⟩ :=
  Action.bind_of_error (place_of_not_contains h)

/-- A write past the end names the last cell it would need, locked cells or not. -/
theorem writeSlice_of_overrun (h : b.Contains o)
    (long : b.cells.size < o.toNatClampNeg + bytes.length) :
    (writeSlice o bytes).run b =
      ⟨.error (.outOfRange (Int64.ofNat (o.toNatClampNeg + bytes.length) - 1) b.size), b, []⟩ := by
  rw [writeSlice, Action.bind_of_silent (place_of_contains h)]
  exact Action.bind_of_error (requireEnd_of_lt long)

/-- A write over locked cells names the least of them. -/
theorem writeSlice_of_locked {locked : Offset} (h : b.Contains o)
    (fits : ¬ b.cells.size < o.toNatClampNeg + bytes.length)
    (hit : b.locks.first? o (Int64.ofNat (o.toNatClampNeg + bytes.length)) = some locked) :
    (writeSlice o bytes).run b = ⟨.error (.cellLocked locked), b, []⟩ := by
  have refused : (requireAllUnlocked o (Int64.ofNat (o.toNatClampNeg + bytes.length))).run b =
      ⟨.error (.cellLocked locked), b, []⟩ := by
    rw [requireAllUnlocked, Action.run_query, hit]
  rw [writeSlice, Action.bind_of_silent (place_of_contains h),
    Action.bind_of_silent (requireEnd_of_not_lt fits)]
  exact Action.bind_of_error refused

theorem writeSlice_of_free (h : b.Contains o)
    (fits : ¬ b.cells.size < o.toNatClampNeg + bytes.length)
    (free : b.locks.first? o (Int64.ofNat (o.toNatClampNeg + bytes.length)) = none) :
    (writeSlice o bytes).run b = ⟨.ok (), b.lay o.toNatClampNeg bytes, []⟩ := by
  have granted : (requireAllUnlocked o (Int64.ofNat (o.toNatClampNeg + bytes.length))).run b =
      ⟨.ok (), b, []⟩ := by
    rw [requireAllUnlocked, Action.run_query, free]
  rw [writeSlice, Action.bind_of_silent (place_of_contains h),
    Action.bind_of_silent (requireEnd_of_not_lt fits)]
  exact Action.bind_of_silent granted

end Laws

end Bank

end ByteMachine
