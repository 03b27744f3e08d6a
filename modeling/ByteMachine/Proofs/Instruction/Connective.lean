import ByteMachine.Instruction.Connective
import ByteMachine.Proofs.Memory.Cell

/-!
# What a connective does to two cells

A connective is run on any two offsets of any machine, whether or not they name cells.

* `Connective.truth` is the truth function, byte by byte; `Connective.value` is the byte that is
  left in the destination. They differ in one case: `imp` on one and the same cell sees the
  destination it has just negated.
* `Connective.inspected` lists the offsets in the order in which they are first looked up.
* `handler_of_outside`, `handler_of_locked`, `handler_of_free` say how a run ends: the first offset
  that names no cell is reported; then a locked destination; otherwise the value is stored.

The four connectives of two steps write in between. What makes them one step to the outside is
that a write changes neither which cells there are nor which of them are locked, so whatever lets
the first step write lets the second one write too.
-/

namespace ByteMachine

namespace Machine

/-- The machine with a byte of its memory replaced, whether locked or not. -/
def store (m : Machine) (o : Offset) (value : Byte) : Machine :=
  { m with memory := m.memory.store o value }

variable {m : Machine} {o : Offset}

theorem valueAt_of_contains (h : m.memory.Contains o) :
    (valueAt o).run m = ⟨.ok (m.memory.byteAt o), m, []⟩ := by
  rw [run_valueAt, Bank.read_of_contains_eq h]

theorem valueAt_of_not_contains (h : ¬ m.memory.Contains o) :
    (valueAt o).run m = ⟨.error (.outOfRange o m.memory.size), m, []⟩ := by
  rw [run_valueAt, Bank.read_of_not_contains h]

theorem setValueAt_of_locked (h : m.memory.Contains o) (locked : o ∈ m.memory.locks)
    (value : Byte) : (setValueAt o value).run m = ⟨.error (.cellLocked o), m, []⟩ :=
  run_setValueAt (Bank.write_of_locked h locked value)

theorem setValueAt_of_free (h : m.memory.Contains o) (free : o ∉ m.memory.locks)
    (value : Byte) : (setValueAt o value).run m = ⟨.ok (), m.store o value, []⟩ :=
  run_setValueAt (Bank.write_of_unlocked h free value)

@[simp] theorem store_store (value later : Byte) :
    (m.store o value).store o later = m.store o later := by
  simp [store]

end Machine

namespace Connective

/-! ## 1. Values -/

/-- The truth function of a connective, on every bit of two bytes. -/
def truth : Connective → Byte → Byte → Byte
  | .and, d, s => d &&& s
  | .or, d, s => d ||| s
  | .not, d, _ => ~~~d
  | .xor, d, s => d ^^^ s
  | .eqv, d, s => ~~~(d ^^^ s)
  | .imp, d, s => ~~~d ||| s
  | .nand, d, s => ~~~(d &&& s)
  | .nor, d, s => ~~~(d ||| s)

/-- The byte left in the destination, from the old bytes at both offsets. -/
def value (k : Connective) (dst src : Offset) (d s : Byte) : Byte :=
  if k = .imp ∧ src = dst then ~~~d else k.truth d s

example : imp.value 3 3 0x0F 0x0F = 0xF0 ∧ imp.value 3 4 0x0F 0x0F = 0xFF := by decide

/-- The offsets that are looked up, in the order in which they are first looked up. -/
def inspected (k : Connective) (dst src : Offset) : List Offset :=
  match k with
  | .not => [dst]
  | .imp => [src, dst]
  | _ => [dst, src]

/-! ## 2. Single steps -/

section Steps

variable {f : Byte → Byte → Byte} {dst src : Offset} {m : Machine}

theorem combine_of_no_dst (hd : ¬ m.memory.Contains dst) :
    (combine f dst src).run m = ⟨.error (.outOfRange dst m.memory.size), m, []⟩ :=
  Action.bind_of_error (Machine.valueAt_of_not_contains hd)

theorem combine_of_no_src (hd : m.memory.Contains dst) (hs : ¬ m.memory.Contains src) :
    (combine f dst src).run m = ⟨.error (.outOfRange src m.memory.size), m, []⟩ := by
  rw [combine, Action.bind_of_silent (Machine.valueAt_of_contains hd)]
  exact Action.bind_of_error (Machine.valueAt_of_not_contains hs)

theorem combine_of_cells (hd : m.memory.Contains dst) (hs : m.memory.Contains src) :
    (combine f dst src).run m =
      (Machine.setValueAt dst (f (m.memory.byteAt dst) (m.memory.byteAt src))).run m := by
  rw [combine, Action.bind_of_silent (Machine.valueAt_of_contains hd),
    Action.bind_of_silent (Machine.valueAt_of_contains hs)]

theorem negate_of_no_dst (hd : ¬ m.memory.Contains dst) :
    (negate dst src).run m = ⟨.error (.outOfRange dst m.memory.size), m, []⟩ :=
  Action.bind_of_error (Machine.valueAt_of_not_contains hd)

theorem negate_of_cell (hd : m.memory.Contains dst) :
    (negate dst src).run m = (Machine.setValueAt dst (~~~m.memory.byteAt dst)).run m := by
  rw [negate, Action.bind_of_silent (Machine.valueAt_of_contains hd)]

/-- After a byte was stored in an unlocked cell, negating that cell succeeds. -/
theorem negate_store (hd : m.memory.Contains dst) (free : dst ∉ m.memory.locks) (byte : Byte) :
    (negate dst src).run (m.store dst byte) = ⟨.ok (), m.store dst (~~~byte), []⟩ := by
  have again : (m.store dst byte).memory.Contains dst := Bank.contains_store.mpr hd
  have still : dst ∉ (m.store dst byte).memory.locks := free
  have seen : (m.store dst byte).memory.byteAt dst = byte := Bank.byteAt_store_self hd
  rw [negate_of_cell again, seen, Machine.setValueAt_of_free again still, Machine.store_store]

end Steps

/-! ## 3. How a run ends -/

section Run

variable {dst src : Offset} {m : Machine}

theorem mem_inspected {k : Connective} {o : Offset} (h : o ∈ k.inspected dst src) :
    o = dst ∨ o = src := by
  cases k <;> simp only [inspected, List.mem_cons, List.not_mem_nil, or_false] at h
  case not => exact .inl h
  case imp => exact h.symm
  all_goals exact h

theorem contains_dst (k : Connective) (h : ∀ o ∈ k.inspected dst src, m.memory.Contains o) :
    m.memory.Contains dst := by
  apply h
  cases k <;> simp [inspected]

theorem contains_src {k : Connective} (binary : k ≠ .not)
    (h : ∀ o ∈ k.inspected dst src, m.memory.Contains o) : m.memory.Contains src := by
  apply h
  cases k <;> first | exact absurd rfl binary | simp [inspected]

/-- The offset to be reported is the first one that names no cell. -/
theorem first_outside {first second o : Offset}
    (h : [first, second].find? (fun o => ¬ m.memory.Contains o) = some o) :
    (¬ m.memory.Contains first ∧ o = first) ∨
    (m.memory.Contains first ∧ ¬ m.memory.Contains second ∧ o = second) := by
  by_cases hf : m.memory.Contains first
  · by_cases hs : m.memory.Contains second
    · simp [hf, hs] at h
    · exact .inr ⟨hf, hs, by simpa [hf, hs, eq_comm] using h⟩
  · exact .inl ⟨hf, by simpa [hf, eq_comm] using h⟩

/-- Joining both cells reports the destination before the source. -/
theorem combine_of_outside {f : Byte → Byte → Byte} {o : Offset}
    (h : [dst, src].find? (fun o => ¬ m.memory.Contains o) = some o) :
    (combine f dst src).run m = ⟨.error (.outOfRange o m.memory.size), m, []⟩ := by
  rcases first_outside h with ⟨hd, rfl⟩ | ⟨hd, hs, rfl⟩
  · exact combine_of_no_dst hd
  · exact combine_of_no_src hd hs

/-- **The first offset that names no cell is reported**, and nothing is changed. -/
theorem handler_of_outside (k : Connective) {o : Offset}
    (h : (k.inspected dst src).find? (fun o => ¬ m.memory.Contains o) = some o) :
    (k.handler dst src).run m = ⟨.error (.outOfRange o m.memory.size), m, []⟩ := by
  cases k with
  | and | or | xor => exact combine_of_outside h
  | eqv | nand | nor => exact Action.bind_of_error (combine_of_outside h)
  | not =>
    by_cases hd : m.memory.Contains dst
    · simp [inspected, hd] at h
    · have e : o = dst := by simpa [inspected, hd, eq_comm] using h
      subst e
      show (negate o src).run m = _
      exact negate_of_no_dst hd
  | imp =>
    rcases first_outside h with ⟨hs, rfl⟩ | ⟨hs, hd, rfl⟩
    · exact Action.bind_of_error (Machine.valueAt_of_not_contains hs)
    · rw [handler, Action.bind_of_silent (Machine.valueAt_of_contains hs)]
      exact Action.bind_of_error (negate_of_no_dst hd)

/-- **A locked destination is reported**, and nothing is changed. -/
theorem handler_of_locked (k : Connective)
    (h : ∀ o ∈ k.inspected dst src, m.memory.Contains o) (locked : dst ∈ m.memory.locks) :
    (k.handler dst src).run m = ⟨.error (.cellLocked dst), m, []⟩ := by
  have hd := k.contains_dst h
  have joined (f : Byte → Byte → Byte) (hs : m.memory.Contains src) :
      (combine f dst src).run m = ⟨.error (.cellLocked dst), m, []⟩ := by
    rw [combine_of_cells hd hs, Machine.setValueAt_of_locked hd locked]
  have negated : (negate dst src).run m = ⟨.error (.cellLocked dst), m, []⟩ := by
    rw [negate_of_cell hd, Machine.setValueAt_of_locked hd locked]
  cases k with
  | and | or | xor => exact joined _ (contains_src (by decide) h)
  | eqv | nand | nor => exact Action.bind_of_error (joined _ (contains_src (by decide) h))
  | not => exact negated
  | imp =>
    rw [handler,
      Action.bind_of_silent (Machine.valueAt_of_contains (contains_src (by decide) h))]
    exact Action.bind_of_error negated

/-- **Otherwise the value is stored in the destination**, and nothing else is changed. -/
theorem handler_of_free (k : Connective)
    (h : ∀ o ∈ k.inspected dst src, m.memory.Contains o) (free : dst ∉ m.memory.locks) :
    (k.handler dst src).run m =
      ⟨.ok (), m.store dst (k.value dst src (m.memory.byteAt dst) (m.memory.byteAt src)), []⟩ := by
  have hd := k.contains_dst h
  have joined (f : Byte → Byte → Byte) (hs : m.memory.Contains src) :
      (combine f dst src).run m =
        ⟨.ok (), m.store dst (f (m.memory.byteAt dst) (m.memory.byteAt src)), []⟩ := by
    rw [combine_of_cells hd hs, Machine.setValueAt_of_free hd free]
  have negated : (negate dst src).run m = ⟨.ok (), m.store dst (~~~m.memory.byteAt dst), []⟩ := by
    rw [negate_of_cell hd, Machine.setValueAt_of_free hd free]
  cases k with
  | and | or | xor => exact joined _ (contains_src (by decide) h)
  | eqv | nand | nor =>
    rw [handler, Action.bind_of_silent (joined _ (contains_src (by decide) h)),
      negate_store hd free]
    rfl
  | not => exact negated
  | imp =>
    have hs : m.memory.Contains src := contains_src (by decide) h
    rw [handler, Action.bind_of_silent (Machine.valueAt_of_contains hs),
      Action.bind_of_silent negated]
    -- The second step runs on the machine whose destination is already negated.
    have hd' : (m.store dst (~~~m.memory.byteAt dst)).memory.Contains dst :=
      Bank.contains_store.mpr hd
    have hs' : (m.store dst (~~~m.memory.byteAt dst)).memory.Contains src :=
      Bank.contains_store.mpr hs
    have free' : dst ∉ (m.store dst (~~~m.memory.byteAt dst)).memory.locks := free
    have seen : (m.store dst (~~~m.memory.byteAt dst)).memory.byteAt dst =
        ~~~m.memory.byteAt dst := Bank.byteAt_store_self hd
    rw [combine_of_cells hd' hs', Machine.setValueAt_of_free hd' free', Machine.store_store, seen]
    by_cases shared : src = dst
    · subst shared
      rw [seen]
      simp [value]
    · have apart : (m.store dst (~~~m.memory.byteAt dst)).memory.byteAt src =
          m.memory.byteAt src := Bank.byteAt_store_of_ne hd hs shared
      rw [apart]
      simp [value, truth, shared]

end Run

end Connective

end ByteMachine
