import ByteMachine.Memory.Address

/-!
# Sets of locked cells

The write-locked cells of a bank, kept as their offsets in strictly increasing order. A typical
bank is large and has few locked cells, so the offsets themselves are stored, not one flag per
cell. Strict order is part of the type: two sets with the same members are equal
(`LockSet.ext_mem`), the first member of an interval is its least one (`first?_eq_some`), and
a binary search in the listed members finds all of them (`found_iff`).
-/

namespace ByteMachine

/-! ## 1. Lists in increasing order -/

/-- Puts an offset into its place of an increasing list, unless it stands there already. -/
def insertOffset (o : Offset) : List Offset → List Offset
  | [] => [o]
  | x :: xs =>
    if o < x then o :: x :: xs
    else if o = x then x :: xs
    else x :: insertOffset o xs

theorem mem_insertOffset {o p : Offset} (xs : List Offset) :
    p ∈ insertOffset o xs ↔ p = o ∨ p ∈ xs := by
  induction xs with
  | nil => simp [insertOffset]
  | cons x xs ih =>
    simp only [insertOffset]
    split
    · simp
    · split
      next h => simp [h]
      next => simp [ih, or_left_comm]

theorem pairwise_insertOffset (o : Offset) {xs : List Offset} (h : xs.Pairwise (· < ·)) :
    (insertOffset o xs).Pairwise (· < ·) := by
  induction xs with
  | nil => simp [insertOffset]
  | cons x xs ih =>
    have hx := List.pairwise_cons.mp h
    simp only [insertOffset]
    split
    next hlt =>
      refine List.pairwise_cons.mpr ⟨fun y hy => ?_, h⟩
      rcases List.mem_cons.mp hy with rfl | hy
      · exact hlt
      · exact Int64.lt_trans hlt (hx.1 y hy)
    next hge =>
      split
      next => exact h
      next hne =>
        refine List.pairwise_cons.mpr ⟨fun y hy => ?_, ih hx.2⟩
        rcases (mem_insertOffset xs).mp hy with rfl | hy
        · exact Int64.lt_of_le_of_ne (Int64.not_lt.mp hge) (Ne.symm hne)
        · exact hx.1 y hy

/-! ## 2. Searching an increasing array -/

/-- Whether a binary search finds the offset in the array, which has to be increasing. -/
def found (xs : Array Offset) (o : Offset) : Bool := xs.binSearchContains o (· < ·)

section Search

variable {xs : Array Offset}

/-- In an increasing array the order of the places is that of the offsets in them. -/
theorem getElem_lt_iff (sorted : xs.toList.Pairwise (· < ·)) {i j : Nat} (hi : i < xs.size)
    (hj : j < xs.size) : xs[i] < xs[j] ↔ i < j := by
  have ordered := List.pairwise_iff_getElem.mp sorted
  refine ⟨fun less => ?_, ordered i j hi hj⟩
  rcases Nat.lt_trichotomy i j with before | rfl | behind
  · exact before
  · exact absurd less Int64.lt_irrefl
  · exact absurd (Int64.lt_trans less (ordered j i hj hi behind)) Int64.lt_irrefl

/-- A search between two places finds what stands at one of them or between them. -/
theorem binSearchAux_iff (sorted : xs.toList.Pairwise (· < ·)) (o : Offset)
    (low : Fin (xs.size + 1)) (high : Fin xs.size) (h : low.1 ≤ high.1) :
    Array.binSearchAux (fun a b => decide (a < b)) Option.isSome xs o low high h = true ↔
      ∃ i, ∃ hi : i < xs.size, (low.1 ≤ i ∧ i ≤ high.1) ∧ xs[i] = o := by
  -- The half that is left out holds only offsets on the wrong side of the middle one.
  fun_induction Array.binSearchAux with
  | case1 low high h middle a less rest _ ih =>
    refine ih.trans ⟨?_, ?_⟩
    · rintro ⟨i, hi, ⟨after, upTo⟩, rfl⟩
      have after : middle + 1 ≤ i := after
      exact ⟨i, hi, by omega, rfl⟩
    · rintro ⟨i, hi, inside, rfl⟩
      have behind : middle < i := (getElem_lt_iff sorted _ hi).mp (of_decide_eq_true less)
      exact ⟨i, hi, ⟨behind, inside.2⟩, rfl⟩
  | case2 low high h middle a less rest =>
    refine iff_of_false nofun ?_
    rintro ⟨i, hi, inside, rfl⟩
    have behind : middle < i := (getElem_lt_iff sorted _ hi).mp (of_decide_eq_true less)
    omega
  | case3 low high h middle a _ greater rest =>
    refine iff_of_false nofun ?_
    rintro ⟨i, hi, inside, rfl⟩
    have before : i < middle := (getElem_lt_iff sorted hi _).mp (of_decide_eq_true greater)
    omega
  | case4 low high h middle a _ greater rest _ ih =>
    refine ih.trans ⟨?_, ?_⟩
    · rintro ⟨i, hi, ⟨after, upTo⟩, rfl⟩
      have upTo : i ≤ middle - 1 := upTo
      exact ⟨i, hi, by omega, rfl⟩
    · rintro ⟨i, hi, inside, rfl⟩
      have before : i < middle := (getElem_lt_iff sorted hi _).mp (of_decide_eq_true greater)
      exact ⟨i, hi, ⟨inside.1, Nat.le_sub_one_of_lt before⟩, rfl⟩
  | case5 low high h middle a less greater =>
    refine iff_of_true rfl ⟨middle, by omega, by omega, ?_⟩
    exact Int64.le_antisymm (Int64.not_lt.mp fun l => greater (decide_eq_true l))
      (Int64.not_lt.mp fun l => less (decide_eq_true l))

/-- **In an increasing array the search finds exactly the members.** -/
theorem found_iff_mem (sorted : xs.toList.Pairwise (· < ·)) {o : Offset} :
    found xs o = true ↔ o ∈ xs := by
  rw [Array.mem_iff_getElem]
  unfold found Array.binSearchContains
  split
  case isTrue filled =>
    simp only [Nat.sub_lt filled Nat.one_pos, if_true, Nat.zero_le, dite_true]
    rw [binSearchAux_iff sorted]
    refine exists_congr fun i => exists_congr fun hi => and_iff_right ⟨Nat.zero_le i, ?_⟩
    exact Nat.le_sub_one_of_lt hi
  case isFalse hollow =>
    refine iff_of_false nofun ?_
    rintro ⟨i, hi, _⟩
    exact hollow (Nat.zero_lt_of_lt hi)

end Search

/-! ## 3. The sets -/

/-- A set of offsets, listed in strictly increasing order. -/
structure LockSet where
  /-- The members. -/
  offsets : List Offset
  /-- The members are listed once each, least first. -/
  increasing : offsets.Pairwise (· < ·)
  deriving DecidableEq

namespace LockSet

instance : Membership Offset LockSet := ⟨fun s o => o ∈ s.offsets⟩

theorem mem_def {s : LockSet} {o : Offset} : o ∈ s ↔ o ∈ s.offsets := Iff.rfl

instance (s : LockSet) (o : Offset) : Decidable (o ∈ s) :=
  inferInstanceAs (Decidable (o ∈ s.offsets))

/-- No cell is locked. -/
def empty : LockSet := ⟨[], .nil⟩

/-- The set with one more member. -/
def insert (s : LockSet) (o : Offset) : LockSet :=
  ⟨insertOffset o s.offsets, pairwise_insertOffset o s.increasing⟩

/-- The set without a member. -/
def erase (s : LockSet) (o : Offset) : LockSet :=
  ⟨s.offsets.filter (· ≠ o), s.increasing.filter _⟩

/-- The least member `o` with `first ≤ o` and `o < stop`. -/
def first? (s : LockSet) (first stop : Offset) : Option Offset :=
  s.offsets.find? fun o => first ≤ o ∧ o < stop

@[simp] theorem not_mem_empty (o : Offset) : o ∉ empty := List.not_mem_nil

@[simp] theorem mem_insert {s : LockSet} {o p : Offset} : p ∈ s.insert o ↔ p = o ∨ p ∈ s :=
  mem_insertOffset s.offsets

@[simp] theorem mem_erase {s : LockSet} {o p : Offset} : p ∈ s.erase o ↔ p ∈ s ∧ p ≠ o := by
  simp [mem_def, erase]

/-- The order of the members is what a search among them relies on. -/
@[simp] theorem found_iff {s : LockSet} {o : Offset} : found s.offsets.toArray o = true ↔ o ∈ s :=
  (found_iff_mem s.increasing).trans List.mem_toArray

theorem first?_eq_none {s : LockSet} {first stop : Offset} :
    s.first? first stop = none ↔ ∀ o ∈ s, first ≤ o → ¬ o < stop := by
  simp [first?, mem_def]

/-- The first member of an interval lies in it, and no smaller member does. -/
theorem first?_eq_some {s : LockSet} {first stop o : Offset} (h : s.first? first stop = some o) :
    (o ∈ s ∧ first ≤ o ∧ o < stop) ∧ ∀ p ∈ s, first ≤ p → o ≤ p := by
  obtain ⟨holds, before, after, split, early⟩ := List.find?_eq_some_iff_append.mp h
  have inside : first ≤ o ∧ o < stop := by simpa using holds
  refine ⟨⟨List.mem_of_find?_eq_some h, inside⟩, fun p hp hfirst => ?_⟩
  have sorted := s.increasing
  rw [mem_def, split] at hp
  rw [split] at sorted
  rcases List.mem_append.mp hp with hp | hp
  · have low := early p hp
    have less : p < o := (List.pairwise_append.mp sorted).2.2 p hp o List.mem_cons_self
    simp [hfirst, Int64.lt_trans less inside.2] at low
  · rcases List.mem_cons.mp hp with rfl | hp
    · exact Int64.le_refl p
    · exact Int64.le_of_lt
        ((List.pairwise_cons.mp (List.pairwise_append.mp sorted).2.1).1 p hp)

/-- Sets with the same members are equal. -/
theorem ext_mem {s t : LockSet} (h : ∀ o, o ∈ s ↔ o ∈ t) : s = t := by
  obtain ⟨xs, hx⟩ := s
  obtain ⟨ys, hy⟩ := t
  have distinct : ∀ {l : List Offset}, l.Pairwise (· < ·) → l.Nodup :=
    fun hl => hl.imp fun hlt => Int64.ne_of_lt hlt
  have perm : xs.Perm ys := (List.perm_ext_iff_of_nodup (distinct hx) (distinct hy)).mpr h
  have equal : xs = ys := perm.eq_of_pairwise
    (fun a b _ _ hab hba => absurd (Int64.lt_trans hab hba) Int64.lt_irrefl) hx hy
  subst equal
  rfl

end LockSet

end ByteMachine
