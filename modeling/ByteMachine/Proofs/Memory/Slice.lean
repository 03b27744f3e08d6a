import ByteMachine.Proofs.Memory.Cell

/-!
# Consecutive cells, at once and one by one

`Bank.writeSlice` looks up the first cell, compares the end with the size, asks the lock set about
one interval and lays all bytes over the cells. `Bank.writeEach` is the loop of single writes. Both
come down to one question about each target, `Bank.Writable`.

* `writeEach_eq_ok_iff`: the loop succeeds exactly if every target is writable.
* `writeSlice_eq_ok_iff`: the write at once asks one thing more, that the first offset names a
  cell. With at least one byte that cell is a target itself; without bytes there is no target, and
  the first offset is refused all the same.

`writeSlice_eq_writeEach` compares the two for at least one byte and says why the write at once is
refused; `writeSlice_refused_iff_target` says where the additional look-up shows.
-/

namespace ByteMachine.Bank

/-! ## 1. Targets -/

/-- There is a cell at this place, and it is not locked. Places are integers, since consecutive
    ones may lie past the greatest offset. -/
def Writable (b : Bank) (place : Int) : Prop :=
  (0 ≤ place ∧ place < b.size.toInt) ∧ ∀ p ∈ b.locks, p.toInt ≠ place

/-- Writes consecutive cells from `o` on, one after another, up to the first that is refused. -/
def writeEach : Offset → List Byte → Action Bank Unit
  | _, [] => pure ()
  | o, byte :: bytes => do
    write o byte
    writeEach (o + 1) bytes

section Targets

variable {b : Bank} {o p : Offset} {count : Nat}

theorem contains_iff_toInt : b.Contains o ↔ 0 ≤ o.toInt ∧ o.toInt < b.size.toInt := by
  rw [contains_iff, Int64.le_iff_toInt_le, Int64.lt_iff_toInt_lt]
  rfl

/-- An offset is writable exactly if it names a cell that is not locked. -/
theorem writable_iff : b.Writable o.toInt ↔ b.Contains o ∧ o ∉ b.locks := by
  rw [Writable, contains_iff_toInt]
  refine and_congr_right fun _ => ⟨fun free locked => free o locked rfl, fun free p locked same => ?_⟩
  exact free (Int64.toInt_inj.mp same ▸ locked)

@[simp] theorem writable_store {value : Byte} {place : Int} :
    (b.store o value).Writable place ↔ b.Writable place := by
  simp only [Writable, size_store, locks_store]

/-- Up to the end of a bank there is no wrapping around. -/
theorem toInt_add_ofNat (low : 0 ≤ o) (fits : o.toInt + count ≤ b.size.toInt) :
    (o + Int64.ofNat count).toInt = o.toInt + count := by
  have nonneg : 0 ≤ o.toInt := Int64.le_iff_toInt_le.mp low
  have bound := b.size.toInt_lt
  rw [Int64.toInt_add, Int64.toInt_ofNat_of_lt (by omega)]
  exact Int.bmod_eq_of_le (by omega) (by omega)

theorem forall_targets_succ :
    (∀ i < count + 1, b.Writable (o.toInt + (i : Nat))) ↔
      b.Writable o.toInt ∧ ∀ i < count, b.Writable (o.toInt + 1 + (i : Nat)) := by
  constructor
  · intro h
    refine ⟨by simpa using h 0 (by omega), fun i hi => ?_⟩
    have next := h (i + 1) (by omega)
    rwa [show o.toInt + ((i + 1 : Nat) : Int) = o.toInt + 1 + i by omega] at next
  · rintro ⟨first, rest⟩ i hi
    cases i with
    | zero => simpa using first
    | succ i =>
      have next := rest i (by omega)
      rwa [show o.toInt + 1 + (i : Int) = o.toInt + ((i + 1 : Nat) : Int) by omega] at next

end Targets

/-! ## 2. One by one -/

theorem lay_cons (b : Bank) (o : Offset) (byte : Byte) (bytes : List Byte) :
    b.lay o.toNatClampNeg (byte :: bytes) = (b.store o byte).lay (o.toNatClampNeg + 1) bytes := rfl

section Loop

variable {b : Bank} {o : Offset} {bytes : List Byte}

theorem next_of_contains (h : b.Contains o) :
    (o + 1).toInt = o.toInt + 1 ∧ (o + 1).toNatClampNeg = o.toNatClampNeg + 1 := by
  have inside := contains_iff_toInt.mp h
  have fits : o.toInt + (1 : Nat) ≤ b.size.toInt := by omega
  have next : (o + 1).toInt = o.toInt + 1 := toInt_add_ofNat h.1 fits
  refine ⟨next, ?_⟩
  have here := Int64.cast_toNatClampNeg o h.1
  have there := Int64.cast_toNatClampNeg (o + 1) (Int64.le_iff_toInt_le.mpr (by
    rw [next]
    exact Int.le_add_one inside.1))
  omega

/-- If every target is writable, the loop lays the bytes over the cells. -/
theorem writeEach_of_writable (h : ∀ i < bytes.length, b.Writable (o.toInt + (i : Nat))) :
    (writeEach o bytes).run b = ⟨.ok (), b.lay o.toNatClampNeg bytes, []⟩ := by
  induction bytes generalizing b o with
  | nil => rfl
  | cons byte bytes ih =>
    obtain ⟨first, rest⟩ := forall_targets_succ.mp h
    obtain ⟨inside, free⟩ := writable_iff.mp first
    obtain ⟨next, place⟩ := next_of_contains inside
    have rest' : ∀ i < bytes.length, (b.store o byte).Writable ((o + 1).toInt + (i : Nat)) := by
      intro i hi
      rw [writable_store, next]
      exact rest i hi
    rw [writeEach, Action.bind_of_silent (write_of_unlocked inside free byte), lay_cons, ← place]
    exact ih rest'

/-- **The loop succeeds exactly if every target is writable.** -/
theorem writeEach_eq_ok_iff : ((writeEach o bytes).run b).result = .ok () ↔
    ∀ i < bytes.length, b.Writable (o.toInt + (i : Nat)) := by
  refine ⟨fun granted => ?_, fun h => by rw [writeEach_of_writable h]⟩
  induction bytes generalizing b o with
  | nil => exact fun i hi => absurd hi (Nat.not_lt_zero i)
  | cons byte bytes ih =>
    rw [writeEach] at granted
    rcases b.write_cases o byte with ⟨_, run⟩ | ⟨_, _, run⟩ | ⟨inside, free, run⟩
    · rw [Action.bind_of_error run] at granted
      cases granted
    · rw [Action.bind_of_error run] at granted
      cases granted
    · rw [Action.bind_of_silent run] at granted
      refine forall_targets_succ.mpr ⟨writable_iff.mpr ⟨inside, free⟩, fun i hi => ?_⟩
      have later := ih granted i hi
      rwa [writable_store, (next_of_contains inside).1] at later

end Loop

/-! ## 3. At once -/

section Slice

variable {b : Bank} {o p : Offset} {bytes : List Byte} {count : Nat}

/-- The end that is compared with the size, as an integer. -/
theorem long_iff (h : b.Contains o) :
    b.cells.size < o.toNatClampNeg + count ↔ b.size.toInt < o.toInt + count := by
  rw [toInt_size, ← Int64.cast_toNatClampNeg o h.1]
  omega

/-- The interval that the lock set is asked about holds the targets. -/
theorem lt_stop_iff (h : b.Contains o) (fits : ¬ b.cells.size < o.toNatClampNeg + count) :
    p < Int64.ofNat (o.toNatClampNeg + count) ↔ p.toInt < o.toInt + count := by
  have bound := b.size_lt
  rw [Int64.lt_iff_toInt_lt, Int64.toInt_ofNat_of_lt (by omega),
    ← Int64.cast_toNatClampNeg o h.1, Int.natCast_add]

/-- **The write at once succeeds exactly if the first offset names a cell and every target is
    writable.** -/
theorem writeSlice_eq_ok_iff : ((writeSlice o bytes).run b).result = .ok () ↔
    b.Contains o ∧ ∀ i < bytes.length, b.Writable (o.toInt + (i : Nat)) := by
  rcases b.writeSlice_cases o bytes with ⟨out, run⟩ | ⟨inside, long, run⟩ |
    ⟨inside, fits, locked, hit, run⟩ | ⟨inside, fits, free, run⟩
  · rw [run]
    exact iff_of_false nofun fun h => out h.1
  · -- The first place past the end is a target.
    rw [run]
    refine iff_of_false nofun fun h => ?_
    have start := contains_iff_toInt.mp inside
    have past := (long_iff inside).mp long
    have target := (h.2 (b.size.toInt - o.toInt).toNat (by omega)).1
    omega
  · rw [run]
    refine iff_of_false nofun fun h => ?_
    obtain ⟨⟨mem, after, before⟩, _⟩ := LockSet.first?_eq_some hit
    have after := Int64.le_iff_toInt_le.mp after
    have before := (lt_stop_iff inside fits).mp before
    have target := (h.2 (locked.toInt - o.toInt).toNat (by omega)).2 locked mem
    omega
  · rw [run]
    refine iff_of_true rfl ⟨inside, fun i hi => ⟨?_, fun p mem same => ?_⟩⟩
    · have start := contains_iff_toInt.mp inside
      have inner := (not_congr (long_iff inside)).mp fits
      omega
    · have after : o ≤ p := Int64.le_iff_toInt_le.mpr (by omega)
      exact LockSet.first?_eq_none.mp free p mem after
        ((lt_stop_iff inside fits).mpr (by omega))

theorem writeSlice_of_writable (inside : b.Contains o)
    (h : ∀ i < bytes.length, b.Writable (o.toInt + (i : Nat))) :
    (writeSlice o bytes).run b = ⟨.ok (), b.lay o.toNatClampNeg bytes, []⟩ := by
  have granted := writeSlice_eq_ok_iff.mpr ⟨inside, h⟩
  rcases b.writeSlice_cases o bytes with ⟨_, run⟩ | ⟨_, _, run⟩ | ⟨_, _, _, _, run⟩ | ⟨_, _, _, run⟩
  · rw [run] at granted
    cases granted
  · rw [run] at granted
    cases granted
  · rw [run] at granted
    cases granted
  · exact run

/-- With at least one byte the first offset is a target itself. -/
theorem contains_of_targets (nonempty : bytes ≠ [])
    (targets : ∀ i < bytes.length, b.Writable (o.toInt + (i : Nat))) : b.Contains o := by
  have first := targets 0 (List.length_pos_iff.mpr nonempty)
  rw [Int.natCast_zero, Int.add_zero] at first
  exact (writable_iff.mp first).1

/-- Why a write of `count` consecutive cells from `o` on is refused: the first reason that
    applies. -/
inductive SliceRefused (b : Bank) (o : Offset) (count : Nat) : Fault → Prop where
  | start (out : ¬ (0 ≤ o ∧ o < b.size)) : SliceRefused b o count (.outOfRange o b.size)
  | overrun {last : Offset} (inside : 0 ≤ o ∧ o < b.size)
      (long : b.size.toInt < o.toInt + count) (end_eq : last.toInt = o.toInt + count - 1) :
      SliceRefused b o count (.outOfRange last b.size)
  | locked {p : Offset} (inside : 0 ≤ o ∧ o < b.size) (fits : o.toInt + count ≤ b.size.toInt)
      (hit : p ∈ b.locks) (after : o ≤ p) (before : p.toInt < o.toInt + count)
      (least : ∀ q ∈ b.locks, o ≤ q → p ≤ q) : SliceRefused b o count (.cellLocked p)

/-- The last of some cells, where counting them does not leave the signed words. -/
theorem toInt_last (inside : b.Contains o) (long : b.size.toInt < o.toInt + count)
    (short : b.cells.size + count < 9223372036854775808) :
    (Int64.ofNat (o.toNatClampNeg + count) - 1).toInt = o.toInt + count - 1 := by
  have place := Int64.cast_toNatClampNeg o inside.1
  have bounds := contains_iff_toInt.mp inside
  have start := inside.2
  have stop : (Int64.ofNat (o.toNatClampNeg + count)).toInt = (o.toNatClampNeg + count : Nat) :=
    Int64.toInt_ofNat_of_lt (by omega)
  have one : (1 : Int64).toInt = 1 := rfl
  rw [Int64.toInt_sub, stop, one, Int.bmod_eq_of_le (by omega) (by omega)]
  omega

/-- A write at once that is refused changes nothing. -/
theorem state_of_error {fault : Fault} (refused : ((writeSlice o bytes).run b).result = .error fault) :
    ((writeSlice o bytes).run b).state = b := by
  rcases b.writeSlice_cases o bytes with ⟨_, run⟩ | ⟨_, _, run⟩ | ⟨_, _, _, _, run⟩ | ⟨_, _, _, run⟩
  · rw [run]
  · rw [run]
  · rw [run]
  · rw [run] at refused
    cases refused

/-- **The write at once is refused exactly for the first reason that applies.** -/
theorem writeSlice_eq_error_iff (short : b.cells.size + bytes.length < 9223372036854775808)
    {fault : Fault} : ((writeSlice o bytes).run b).result = .error fault ↔
      b.SliceRefused o bytes.length fault := by
  constructor
  · intro refused
    rcases b.writeSlice_cases o bytes with ⟨out, run⟩ | ⟨inside, long, run⟩ |
      ⟨inside, fits, locked, hit, run⟩ | ⟨_, _, _, run⟩
    · rw [run] at refused
      cases refused
      exact .start fun inside => out (contains_iff.mpr inside)
    · rw [run] at refused
      cases refused
      have long := (long_iff inside).mp long
      exact .overrun (contains_iff.mp inside) long (toInt_last inside long short)
    · rw [run] at refused
      cases refused
      obtain ⟨⟨mem, after, before⟩, least⟩ := LockSet.first?_eq_some hit
      exact .locked (contains_iff.mp inside) (Int.not_lt.mp ((not_congr (long_iff inside)).mp fits))
        mem after ((lt_stop_iff inside fits).mp before) least
    · rw [run] at refused
      cases refused
  · intro h
    cases h with
    | start out =>
      rw [writeSlice_of_not_contains (fun inside => out (contains_iff.mp inside))]
    | @overrun last inside long end_eq =>
      have inside := contains_iff.mpr inside
      rw [writeSlice_of_overrun inside ((long_iff inside).mpr long),
        Int64.toInt_inj.mp (end_eq.trans (toInt_last inside long short).symm)]
    | @locked p inside fits hit after before least =>
      have inside := contains_iff.mpr inside
      have fits := (not_congr (long_iff inside)).mpr (Int.not_lt.mpr fits)
      have before := (lt_stop_iff inside fits).mpr before
      cases found : b.locks.first? o (Int64.ofNat (o.toNatClampNeg + bytes.length)) with
      | none => exact absurd before (LockSet.first?_eq_none.mp found p hit after)
      | some q =>
        obtain ⟨⟨mem, first, _⟩, smallest⟩ := LockSet.first?_eq_some found
        have e : q = p := Int64.le_antisymm (smallest p hit after) (least q mem first)
        rw [writeSlice_of_locked inside fits found, e]

end Slice

/-- **A write at once is the loop of single writes, or nothing at all.** For at least one byte it
    succeeds exactly if the loop does, and then leaves the same bank. Otherwise it leaves the bank
    as it was and reports the first offset if that names no cell, else the last target if that
    lies past the end, locked cells or not, else the least locked target. -/
theorem writeSlice_eq_writeEach (b : Bank) (o : Offset) {bytes : List Byte} (nonempty : bytes ≠ [])
    (short : b.cells.size + bytes.length < 9223372036854775808) :
    (((writeSlice o bytes).run b).result = .ok () ↔
      ((writeEach o bytes).run b).result = .ok ()) ∧
    (((writeSlice o bytes).run b).result = .ok () →
      ((writeSlice o bytes).run b).state = ((writeEach o bytes).run b).state) ∧
    ∀ fault, (((writeSlice o bytes).run b).result = .error fault ↔
        b.SliceRefused o bytes.length fault) ∧
      (((writeSlice o bytes).run b).result = .error fault →
        ((writeSlice o bytes).run b).state = b) := by
  refine ⟨?_, fun granted => ?_, fun fault => ⟨writeSlice_eq_error_iff short, state_of_error⟩⟩
  · rw [writeSlice_eq_ok_iff, writeEach_eq_ok_iff]
    exact and_iff_right_of_imp (contains_of_targets nonempty)
  · obtain ⟨inside, targets⟩ := writeSlice_eq_ok_iff.mp granted
    rw [writeSlice_of_writable inside targets, writeEach_of_writable targets]

/-- It holds where the cells on both sides of the targets are locked, and none of the targets is. -/
theorem writeSlice_eq_writeEach_between_locks :
    ∃ zeroed, create 5 = .ok zeroed ∧
      let b := { zeroed with locks := (zeroed.locks.insert 1).insert 4 }
      [8, 9] ≠ ([] : List Byte) ∧ b.cells.size + [8, 9].length < 9223372036854775808 ∧
      ((writeEach 2 [8, 9]).run b).result = .ok () ∧ ((writeSlice 2 [8, 9]).run b).result = .ok () ∧
      ((writeSlice 2 [8, 9]).run b).state = ((writeEach 2 [8, 9]).run b).state := by
  refine ⟨_, rfl, ?_⟩
  intro b
  have short : b.cells.size + [8, 9].length < 9223372036854775808 := by decide
  have nonempty : [8, 9] ≠ ([] : List Byte) := by decide
  obtain ⟨same, state, _⟩ := writeSlice_eq_writeEach b 2 nonempty short
  have loop : ((writeEach 2 [8, 9]).run b).result = .ok () := rfl
  exact ⟨nonempty, short, loop, same.mpr loop, state (same.mpr loop)⟩

/-! ## 4. Two parts -/

theorem overlay_append (cells : Array Byte) (start : Nat) (xs ys : List Byte) :
    overlay cells start (xs ++ ys) = overlay (overlay cells start xs) (start + xs.length) ys := by
  induction xs generalizing cells start with
  | nil => rfl
  | cons x xs ih =>
    rw [List.cons_append, overlay, ih, overlay, List.length_cons,
      show start + 1 + xs.length = start + (xs.length + 1) by omega]

theorem lay_append (b : Bank) (start : Nat) (xs ys : List Byte) :
    b.lay start (xs ++ ys) = (b.lay start xs).lay (start + xs.length) ys := by
  simp only [lay, overlay_append]

/-- Writes some bytes from `o` on and then, if that succeeded, more bytes right behind them. -/
def writeBoth (o : Offset) (xs ys : List Byte) : Action Bank Unit := do
  writeSlice o xs
  writeSlice (o + Int64.ofNat xs.length) ys

section Parts

variable {b : Bank} {o p : Offset} {xs ys bytes : List Byte} {start count : Nat} {place : Int}

@[simp] theorem size_lay : (b.lay start bytes).size = b.size := by
  simp only [size, lay, size_overlay]

@[simp] theorem contains_lay : (b.lay start bytes).Contains p ↔ b.Contains p := by
  rw [contains_iff, contains_iff, size_lay]

@[simp] theorem writable_lay : (b.lay start bytes).Writable place ↔ b.Writable place := by
  simp only [Writable, size_lay]
  rfl

theorem fits_of_targets (inside : b.Contains o)
    (targets : ∀ i < count, b.Writable (o.toInt + (i : Nat))) :
    o.toInt + count ≤ b.size.toInt := by
  have start := contains_iff_toInt.mp inside
  cases count with
  | zero => omega
  | succ n =>
    have last := (targets n (by omega)).1
    omega

/-- Where the bytes of both parts can be written at once, those of the first part are, and the
    targets of the second part are writable. -/
theorem writeBoth_run (whole : ((writeSlice o (xs ++ ys)).run b).result = .ok ()) :
    (writeBoth o xs ys).run b =
      (writeSlice (o + Int64.ofNat xs.length) ys).run (b.lay o.toNatClampNeg xs) ∧
    (o + Int64.ofNat xs.length).toInt = o.toInt + xs.length ∧
    ∀ i < ys.length, b.Writable ((o + Int64.ofNat xs.length).toInt + (i : Nat)) := by
  obtain ⟨inside, targets⟩ := writeSlice_eq_ok_iff.mp whole
  rw [List.length_append] at targets
  have first : ∀ i < xs.length, b.Writable (o.toInt + (i : Nat)) :=
    fun i hi => targets i (by omega)
  have middle := toInt_add_ofNat inside.1 (fits_of_targets inside first)
  refine ⟨Action.bind_of_silent (writeSlice_of_writable inside first), middle, fun i hi => ?_⟩
  have target := targets (xs.length + i) (by omega)
  rwa [Int.natCast_add, ← Int.add_assoc, ← middle] at target

/-- The second part is granted exactly if its first offset names a cell. -/
theorem writeBoth_eq_ok_iff (whole : ((writeSlice o (xs ++ ys)).run b).result = .ok ()) :
    ((writeBoth o xs ys).run b).result = .ok () ↔ b.Contains (o + Int64.ofNat xs.length) := by
  obtain ⟨run, _, second⟩ := writeBoth_run whole
  rw [run, writeSlice_eq_ok_iff, contains_lay]
  exact and_iff_left fun i hi => writable_lay.mpr (second i hi)

/-- Both parts together lay the same bytes over the same cells. -/
theorem state_writeBoth (whole : ((writeSlice o (xs ++ ys)).run b).result = .ok ())
    (granted : ((writeBoth o xs ys).run b).result = .ok ()) :
    ((writeBoth o xs ys).run b).state = ((writeSlice o (xs ++ ys)).run b).state := by
  obtain ⟨run, middle, second⟩ := writeBoth_run whole
  have there := (writeBoth_eq_ok_iff whole).mp granted
  obtain ⟨inside, targets⟩ := writeSlice_eq_ok_iff.mp whole
  have place : (o + Int64.ofNat xs.length).toNatClampNeg = o.toNatClampNeg + xs.length := by
    have here := Int64.cast_toNatClampNeg o inside.1
    have next := Int64.cast_toNatClampNeg _ there.1
    omega
  rw [run, writeSlice_of_writable (contains_lay.mpr there) fun i hi => writable_lay.mpr (second i hi),
    writeSlice_of_writable inside targets, place, lay_append]

/-- The second part starts inside the bank, unless it is empty and the first part ends with the
    bank. -/
theorem contains_middle_iff (whole : ((writeSlice o (xs ++ ys)).run b).result = .ok ()) :
    b.Contains (o + Int64.ofNat xs.length) ↔
      ¬ (ys = [] ∧ o + Int64.ofNat xs.length = b.size) := by
  obtain ⟨_, middle, _⟩ := writeBoth_run whole
  obtain ⟨inside, targets⟩ := writeSlice_eq_ok_iff.mp whole
  have start := contains_iff_toInt.mp inside
  have fits := fits_of_targets inside targets
  rw [List.length_append] at fits
  rw [contains_iff_toInt, ← Int64.toInt_inj, middle, ← List.length_eq_zero_iff]
  omega

/-- A write at once is refused if its first offset names no cell, or for one of its targets. -/
theorem writeSlice_refused_iff : (∃ fault, ((writeSlice o bytes).run b).result = .error fault) ↔
    ¬ b.Contains o ∨ ∃ i < bytes.length, ¬ b.Writable (o.toInt + (i : Nat)) := by
  have refused : (∃ fault, ((writeSlice o bytes).run b).result = .error fault) ↔
      ¬ ((writeSlice o bytes).run b).result = .ok () := by
    cases ((writeSlice o bytes).run b).result with
    | error fault => simp
    | ok value => simp
  rw [refused, writeSlice_eq_ok_iff]
  simp only [Classical.not_and_iff_not_or_not, Classical.not_forall, exists_prop]

end Parts

/-- **A write at once is refused for its targets only, except for no bytes right behind the last
    cell.** There it is refused though it has no target. In the same case, and in no other, bytes
    that can be written at once cannot be written in two parts. -/
theorem writeSlice_refused_iff_target {b : Bank} {o : Offset} (low : 0 ≤ o) (high : o ≤ b.size) :
    (∀ bytes : List Byte,
      ((∃ fault, ((writeSlice o bytes).run b).result = .error fault) ↔
        ∃ i < bytes.length, ¬ b.Writable (o.toInt + (i : Nat))) ↔
      ¬ (bytes = [] ∧ o = b.size)) ∧
    ∀ xs ys : List Byte, ((writeSlice o (xs ++ ys)).run b).result = .ok () →
      (((writeBoth o xs ys).run b).result = .ok () ∧
        ((writeBoth o xs ys).run b).state = ((writeSlice o (xs ++ ys)).run b).state ↔
      ¬ (ys = [] ∧ o + Int64.ofNat xs.length = b.size)) := by
  refine ⟨fun bytes => ?_, fun xs ys whole => ?_⟩
  · rw [writeSlice_refused_iff]
    by_cases empty : bytes = []
    · subst empty
      -- There is no target, so the first offset decides alone.
      have untargeted : ¬ ∃ i < ([] : List Byte).length, ¬ b.Writable (o.toInt + (i : Nat)) :=
        fun ⟨i, hi, _⟩ => Nat.not_lt_zero i hi
      have low := Int64.le_iff_toInt_le.mp low
      have high := Int64.le_iff_toInt_le.mp high
      have behind : b.Contains o ↔ ¬ o = b.size := by
        rw [contains_iff_toInt, ← Int64.toInt_inj]
        exact ⟨fun inside => Int.ne_of_lt inside.2, fun apart => ⟨low, by omega⟩⟩
      simp only [untargeted, or_false, iff_false, Classical.not_not, true_and, behind]
    · refine iff_of_true (or_iff_right_of_imp fun out => ?_) fun h => empty h.1
      refine Classical.byContradiction fun none => out (contains_of_targets empty fun i hi => ?_)
      exact Classical.byContradiction fun bad => none ⟨i, hi, bad⟩
  · rw [← contains_middle_iff whole, ← writeBoth_eq_ok_iff whole]
    exact and_iff_left_of_imp (state_writeBoth whole)

/-- It holds of three bytes from the third of four cells on, which reach past the end, and of two
    parts of which the second one is the last cell. -/
theorem writeSlice_refused_iff_target_last_cell :
    ∃ b, create 4 = .ok b ∧ (0 : Offset) ≤ 2 ∧ 2 ≤ b.size ∧
      ((∃ fault, ((writeSlice 2 [1, 2, 3]).run b).result = .error fault) ↔
        ∃ i < [1, 2, 3].length, ¬ b.Writable ((2 : Offset).toInt + (i : Nat))) ∧
      ((writeSlice 2 ([1] ++ [2])).run b).result = .ok () ∧
      ((writeBoth 2 [1] [2]).run b).state = ((writeSlice 2 ([1] ++ [2])).run b).state := by
  obtain ⟨b, made, high, whole⟩ : ∃ b, create 4 = .ok b ∧ (2 : Offset) ≤ b.size ∧
      ((writeSlice 2 ([1] ++ [2])).run b).result = .ok () := ⟨_, rfl, by decide, rfl⟩
  obtain ⟨refused, parts⟩ := writeSlice_refused_iff_target (by decide) high
  exact ⟨b, made, by decide, high, (refused [1, 2, 3]).mpr (by simp), whole,
    ((parts [1] [2] whole).mpr (by simp)).2⟩

/-- The exception is there: behind the last of four cells no bytes are refused, though they have no
    target, and so are no bytes after three that end with the bank. -/
theorem writeSlice_refused_without_target :
    ∃ b, create 4 = .ok b ∧ ((0 : Offset) ≤ 4 ∧ 4 ≤ b.size) ∧
      ((writeSlice 4 []).run b).result = .error (.outOfRange 4 4) ∧
      (¬ ∃ i < ([] : List Byte).length, ¬ b.Writable ((4 : Offset).toInt + (i : Nat))) ∧
      ((writeSlice 1 ([1, 2, 3] ++ [])).run b).result = .ok () ∧
      ((writeBoth 1 [1, 2, 3] []).run b).result = .error (.outOfRange 4 4) := by
  refine ⟨_, rfl, by decide, rfl, ?_, rfl, rfl⟩
  rintro ⟨i, hi, _⟩
  exact Nat.not_lt_zero i hi

end ByteMachine.Bank
