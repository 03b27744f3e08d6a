import ByteMachine.Memory.Request
import ByteMachine.Proofs.Memory.Cell

/-!
# What a request can do to a bank

* `Bank.Change` lists what a request does to a bank, with the conditions under which it does it,
  and `change_serve` says that there is nothing else.
* `Bank.Effect` is the coarser list: a write is only known to miss the locked cells. What a single
  request keeps is read off it: the number of cells (`Effect.size_eq`), that only cells are locked
  (`Effect.locks_inside`), and a locked cell that is not unlocked (`Effect.keeps_locked`).
-/

namespace ByteMachine

namespace Bank

/-! ## 1. What a request does -/

/-- What a request does to a bank, whether it is granted, and what it takes to be granted. -/
inductive Change (b : Bank) : Bank.Request → Bool → Bank → Prop where
  | refused (request : Bank.Request) : Change b request false b
  | size : Change b .size true b
  | read (o : Offset) : Change b (.read o) true b
  | isLocked (o : Offset) : Change b (.isLocked o) true b
  | written {o : Offset} {value : Byte} (inside : b.Contains o) (free : o ∉ b.locks) :
      Change b (.write o value) true (b.store o value)
  | laid {o : Offset} {bytes : List Byte} (inside : b.Contains o)
      (fits : ¬ b.cells.size < o.toNatClampNeg + bytes.length)
      (free : b.locks.first? o (Int64.ofNat (o.toNatClampNeg + bytes.length)) = none) :
      Change b (.writeSlice o bytes) true (b.lay o.toNatClampNeg bytes)
  | locked {o : Offset} (inside : b.Contains o) :
      Change b (.lock o) true { b with locks := b.locks.insert o }
  | unlocked {o : Offset} (inside : b.Contains o) :
      Change b (.unlock o) true { b with locks := b.locks.erase o }

/-- **A request does one of these things to a bank, and nothing else.** -/
theorem change_serve (b : Bank) (request : Bank.Request) :
    b.Change request ((serve request).run b).result.isOk ((serve request).run b).state := by
  cases request with
  | size => exact .size
  | read o =>
    rw [serve, Action.run_query]
    cases b.read o with
    | error fault => exact .refused _
    | ok value => exact .read o
  | isLocked o =>
    rw [serve, Action.run_query]
    cases b.isLocked o with
    | error fault => exact .refused _
    | ok value => exact .isLocked o
  | write o value =>
    rw [serve]
    rcases b.write_cases o value with ⟨_, h⟩ | ⟨_, _, h⟩ | ⟨inside, free, h⟩
    · rw [Action.bind_of_error h]
      exact .refused _
    · rw [Action.bind_of_error h]
      exact .refused _
    · rw [Action.bind_of_silent h]
      exact .written inside free
  | writeSlice o bytes =>
    rw [serve]
    rcases b.writeSlice_cases o bytes with ⟨_, h⟩ | ⟨_, _, h⟩ | ⟨_, _, _, _, h⟩ |
      ⟨inside, fits, free, h⟩
    · rw [Action.bind_of_error h]
      exact .refused _
    · rw [Action.bind_of_error h]
      exact .refused _
    · rw [Action.bind_of_error h]
      exact .refused _
    · rw [Action.bind_of_silent h]
      exact .laid inside fits free
  | lock o =>
    rw [serve]
    by_cases inside : b.Contains o
    · rw [Action.bind_of_silent (lock_of_contains inside)]
      exact .locked inside
    · rw [Action.bind_of_error (lock_of_not_contains inside)]
      exact .refused _
  | unlock o =>
    rw [serve]
    by_cases inside : b.Contains o
    · rw [Action.bind_of_silent (unlock_of_contains inside)]
      exact .unlocked inside
    · rw [Action.bind_of_error (unlock_of_not_contains inside)]
      exact .refused _

/-! ## 2. What no request can do -/

/-- What a request can do: nothing, write unlocked cells, lock a cell, unlock a cell. -/
inductive Effect (b : Bank) : Bank.Request → Bool → Bank → Prop where
  | none (request : Bank.Request) (granted : Bool) : Effect b request granted b
  | written {request : Bank.Request} {after : Bank} (size : after.cells.size = b.cells.size)
      (locks : after.locks = b.locks) (same : ∀ o ∈ b.locks, after.read o = b.read o) :
      Effect b request true after
  | locked {o : Offset} (inside : b.Contains o) :
      Effect b (.lock o) true { b with locks := b.locks.insert o }
  | unlocked {o : Offset} (inside : b.Contains o) :
      Effect b (.unlock o) true { b with locks := b.locks.erase o }

/-- Reading depends on the number of cells and on the cell that is read. -/
theorem read_congr {b after : Bank} {o : Offset} (size : after.cells.size = b.cells.size)
    (same : b.Contains o → after.cells[o.toNatClampNeg]? = b.cells[o.toNatClampNeg]?) :
    after.read o = b.read o := by
  by_cases h : b.Contains o
  · have h' : after.Contains o := ⟨h.1, size ▸ h.2⟩
    rw [read_of_contains_eq h, read_of_contains_eq h', byteAt, byteAt, same h]
  · have h' : ¬ after.Contains o := fun there => h ⟨there.1, size ▸ there.2⟩
    rw [read_of_not_contains h, read_of_not_contains h', Bank.size, Bank.size, size]

/-- The interval that a bulk write asks the lock set about covers the cells that it writes. -/
theorem outside_of_first?_none {b : Bank} {o p : Offset} {count : Nat} (low : 0 ≤ o)
    (fits : o.toNatClampNeg + count ≤ b.cells.size) (locked : p ∈ b.locks) (hp : 0 ≤ p)
    (free : b.locks.first? o (Int64.ofNat (o.toNatClampNeg + count)) = none) :
    p.toNatClampNeg < o.toNatClampNeg ∨ o.toNatClampNeg + count ≤ p.toNatClampNeg := by
  have eo := Int64.cast_toNatClampNeg o low
  have ep := Int64.cast_toNatClampNeg p hp
  have stop : (Int64.ofNat (o.toNatClampNeg + count)).toInt = (o.toNatClampNeg + count : Nat) :=
    Int64.toInt_ofNat_of_lt (Nat.lt_of_le_of_lt fits b.size_lt)
  by_cases before : o ≤ p
  · have past := LockSet.first?_eq_none.mp free p locked before
    rw [Int64.lt_iff_toInt_lt, stop] at past
    omega
  · have below := Int64.lt_iff_toInt_lt.mp (Int64.not_le.mp before)
    omega

/-- Neither write reaches a locked cell; the bulk write's range query finds every one it would
    hit. -/
theorem Change.effect {b after : Bank} {request : Bank.Request} {granted : Bool}
    (h : b.Change request granted after) : b.Effect request granted after := by
  cases h with
  | refused | size | read | isLocked => exact .none _ _
  | locked inside => exact .locked inside
  | unlocked inside => exact .unlocked inside
  | @written o value inside free =>
    refine .written length_store rfl fun p locked => ?_
    have apart : p ≠ o := by
      rintro rfl
      exact free locked
    rw [read_store inside, if_neg apart]
  | @laid o bytes inside fits free =>
    have size : (b.lay o.toNatClampNeg bytes).cells.size = b.cells.size := size_overlay _ _ _
    refine .written size rfl fun p locked => read_congr size fun there => ?_
    exact getElem?_overlay_of_outside _ _ _
      (outside_of_first?_none inside.1 (Nat.not_lt.mp fits) locked there.1 free)

theorem effect_serve (b : Bank) (request : Bank.Request) :
    b.Effect request ((serve request).run b).result.isOk ((serve request).run b).state :=
  (b.change_serve request).effect

section Effect

variable {b after : Bank} {request : Bank.Request} {granted : Bool}

theorem Effect.size_eq (h : b.Effect request granted after) :
    after.cells.size = b.cells.size := by
  cases h with
  | written size _ _ => exact size
  | none | locked | unlocked => rfl

/-- Locked offsets stay inside the bank. -/
theorem Effect.locks_inside (h : b.Effect request granted after)
    (inside : ∀ o ∈ b.locks, b.Contains o) : ∀ o ∈ after.locks, after.Contains o := by
  intro o ho
  have there : b.Contains o := by
    cases h with
    | none => exact inside o ho
    | written _ locks _ => exact inside o (locks ▸ ho)
    | locked fresh =>
      rcases LockSet.mem_insert.mp ho with rfl | ho
      · exact fresh
      · exact inside o ho
    | unlocked _ => exact inside o (LockSet.mem_erase.mp ho).1
  exact ⟨there.1, h.size_eq ▸ there.2⟩

/-- A locked cell keeps its lock and its byte unless it is unlocked. -/
theorem Effect.keeps_locked (h : b.Effect request granted after) {o : Offset} (locked : o ∈ b.locks)
    (guarded : ¬ (request = .unlock o ∧ granted = true)) :
    o ∈ after.locks ∧ after.read o = b.read o := by
  cases h with
  | none => exact ⟨locked, rfl⟩
  | written _ locks same => exact ⟨locks ▸ locked, same o locked⟩
  | locked _ => exact ⟨LockSet.mem_insert.mpr (.inr locked), rfl⟩
  | @unlocked p _ =>
    have other : o ≠ p := by
      rintro rfl
      exact guarded ⟨rfl, rfl⟩
    exact ⟨LockSet.mem_erase.mpr ⟨locked, other⟩, rfl⟩

end Effect

end Bank

end ByteMachine
