import ByteMachine.Proofs.Memory.Effect

/-!
# The history of a bank decides what it holds

A bank stores bytes in an array and locks in a set of offsets. Seen from outside it is its
history: the requests made so far, each with whether it was granted.

* `Call.written?` and `Call.latched?` say what a call does to one offset, from the request alone:
  which byte it puts there, and whether it locks or unlocks it. A refused call does nothing.
* `view_perform`: a view of the bank that every single call sets in this way shows, after any
  requests, what the latest call to set it has left. Two views are set so: the byte at an
  offset (`Change.byteAt`) and whether the offset is locked (`Change.locked_eq`).

`history_decides` puts this together for every bank that starts with zeroed, unlocked cells.
-/

namespace ByteMachine.Bank

/-! ## 1. Calls -/

/-- A request to a bank, and whether it was granted. -/
structure Call where
  request : Bank.Request
  granted : Bool

/-- The byte that the call put at an offset. -/
def Call.written? (c : Call) (o : Offset) : Option Byte :=
  match c with
  | ⟨.write p value, true⟩ => if p = o then some value else none
  | ⟨.writeSlice p bytes, true⟩ => laid? p bytes o
  | _ => none

/-- Whether the call locked an offset or unlocked it. -/
def Call.latched? (c : Call) (o : Offset) : Option Bool :=
  match c with
  | ⟨.lock p, true⟩ => if p = o then some true else none
  | ⟨.unlock p, true⟩ => if p = o then some false else none
  | _ => none

/-- The call that a request makes to a bank. -/
def call (b : Bank) (r : Bank.Request) : Call := ⟨r, ((serve r).run b).result.isOk⟩

/-- The bank after some requests, granted or refused. -/
def perform (b : Bank) (requests : List Bank.Request) : Bank :=
  requests.foldl (fun b r => ((serve r).run b).state) b

/-- The calls that some requests make, the latest first. -/
def history : Bank → List Bank.Request → List Call
  | _, [] => []
  | b, r :: requests => ((serve r).run b).state.history requests ++ [b.call r]

/-! ## 2. What one call does to an offset -/

theorem Call.written?_of_refused (r : Bank.Request) (o : Offset) :
    (Call.mk r false).written? o = none := by
  cases r <;> rfl

theorem Call.latched?_of_refused (r : Bank.Request) (o : Offset) :
    (Call.mk r false).latched? o = none := by
  cases r <;> rfl

section Change

variable {b after : Bank} {r : Bank.Request} {granted : Bool} {o : Offset}

theorem Change.byteAt (h : b.Change r granted after) (inside : b.Contains o) :
    after.byteAt o = ((Call.mk r granted).written? o).getD (b.byteAt o) := by
  cases h with
  | refused =>
    rw [Call.written?_of_refused]
    rfl
  | size | read | isLocked | locked | unlocked => rfl
  | @written p value there _ =>
    show (b.store p value).byteAt o = (if p = o then some value else none).getD (b.byteAt o)
    by_cases e : p = o
    · subst e
      rw [byteAt_store_self there, if_pos rfl]
      rfl
    · rw [byteAt_store_of_ne there inside (Ne.symm e), if_neg e]
      rfl
  | laid there fits _ => exact byteAt_lay there inside fits

theorem Change.locked_eq (h : b.Change r granted after) (o : Offset) :
    decide (o ∈ after.locks) =
      ((Call.mk r granted).latched? o).getD (decide (o ∈ b.locks)) := by
  cases h with
  | refused =>
    rw [Call.latched?_of_refused]
    rfl
  | size | read | isLocked | written | laid => rfl
  | @locked p _ =>
    show decide (o ∈ b.locks.insert p) = (if p = o then some true else none).getD _
    by_cases e : p = o
    · simp [e]
    · simp [e, Ne.symm e]
  | @unlocked p _ =>
    show decide (o ∈ b.locks.erase p) = (if p = o then some false else none).getD _
    by_cases e : p = o
    · simp [e]
    · simp [e, Ne.symm e]

end Change

/-! ## 3. Whole runs -/

theorem size_perform (b : Bank) (requests : List Bank.Request) :
    (b.perform requests).cells.size = b.cells.size := by
  induction requests generalizing b with
  | nil => rfl
  | cons r requests ih => exact (ih _).trans (b.effect_serve r).size_eq

theorem contains_perform {b : Bank} {requests : List Bank.Request} {o : Offset} :
    (b.perform requests).Contains o ↔ b.Contains o := by
  unfold Contains
  rw [size_perform]

theorem locks_inside_perform {b : Bank} (inside : ∀ o ∈ b.locks, b.Contains o)
    (requests : List Bank.Request) :
    ∀ o ∈ (b.perform requests).locks, (b.perform requests).Contains o := by
  induction requests generalizing b with
  | nil => exact inside
  | cons r requests ih => exact ih ((b.effect_serve r).locks_inside inside)

/-- **What every call sets, the latest call to set it decides.** -/
theorem view_perform {β : Type} (view : Bank → β) (sets : Call → Option β) {o : Offset}
    (step : ∀ b r, b.Contains o → view ((serve r).run b).state = (sets (b.call r)).getD (view b))
    {b : Bank} (inside : b.Contains o) (requests : List Bank.Request) :
    view (b.perform requests) = ((b.history requests).findSome? sets).getD (view b) := by
  induction requests generalizing b with
  | nil => rfl
  | cons r requests ih =>
    have still : ((serve r).run b).state.Contains o :=
      ⟨inside.1, (b.effect_serve r).size_eq.symm ▸ inside.2⟩
    have rest : view (b.perform (r :: requests)) =
        ((((serve r).run b).state.history requests).findSome? sets).getD
          (view ((serve r).run b).state) := ih still
    rw [rest, history, List.findSome?_append]
    -- A later call that sets the view wins; otherwise the first request decides.
    cases (((serve r).run b).state.history requests).findSome? sets with
    | some x => rfl
    | none =>
      rw [Option.none_or, Option.getD_none, step b r inside, List.findSome?_singleton]

theorem byteAt_perform {b : Bank} {o : Offset} (inside : b.Contains o)
    (requests : List Bank.Request) :
    (b.perform requests).byteAt o =
      ((b.history requests).findSome? (·.written? o)).getD (b.byteAt o) :=
  view_perform (·.byteAt o) (·.written? o) (fun b r hb => (b.change_serve r).byteAt hb) inside
    requests

theorem locked_perform {b : Bank} {o : Offset} (inside : b.Contains o)
    (requests : List Bank.Request) :
    decide (o ∈ (b.perform requests).locks) =
      ((b.history requests).findSome? (·.latched? o)).getD (decide (o ∈ b.locks)) :=
  view_perform (fun b => decide (o ∈ b.locks)) (·.latched? o)
    (fun b r _ => (b.change_serve r).locked_eq o) inside requests

/-! ## 4. The law -/

theorem mem_locks_iff {b : Bank} (inside : ∀ o ∈ b.locks, b.Contains o) (o : Offset) :
    o ∈ b.locks ↔ b.isLocked o = .ok true := by
  by_cases there : b.Contains o
  · rw [isLocked_of_contains there, Except.ok.injEq, decide_eq_true_eq]
  · rw [isLocked_of_not_contains there]
    constructor
    · intro locked
      exact absurd (inside o locked) there
    · intro h
      cases h

/-- What a bank of `size` cells shows after the calls of its history, the latest first. -/
structure Remembers (b : Bank) (size : Offset) (calls : List Call) : Prop where
  /-- A cell holds the byte that the latest write to reach it put there, or zero. -/
  content : ∀ o, 0 ≤ o → o < size → b.read o = .ok ((calls.findSome? (·.written? o)).getD 0)
  /-- A cell is locked exactly if the latest lock or unlock of it was a lock. -/
  lock : ∀ o, 0 ≤ o → o < size → b.isLocked o = .ok ((calls.findSome? (·.latched? o)).getD false)
  /-- The listing holds the locked offsets and no others, in increasing order. -/
  listing : b.locks.offsets.Pairwise (· < ·) ∧
    ∀ o, o ∈ b.locks.offsets ↔ b.isLocked o = .ok true
  /-- Any other offset is refused. -/
  outside : ∀ o, ¬ (0 ≤ o ∧ o < size) →
    b.read o = .error (.outOfRange o size) ∧ b.isLocked o = .error (.outOfRange o size) ∧
    (∀ value, ((write o value).run b).result = .error (.outOfRange o size)) ∧
    ((Bank.lock o).run b).result = .error (.outOfRange o size) ∧
    ((unlock o).run b).result = .error (.outOfRange o size)

theorem create_of_nonneg {size : Offset} (h : 0 ≤ size) :
    ∃ b, create size = .ok b ∧ b.size = size ∧ b.locks = .empty ∧ ∀ o, b.byteAt o = 0 := by
  refine ⟨_, if_pos h, ?_, rfl, fun o => ?_⟩
  · apply Int64.toInt_inj.mp
    rw [toInt_size, ← Int64.cast_toNatClampNeg size h, Array.size_replicate]
  · unfold byteAt
    rw [Array.getElem?_replicate]
    split <;> rfl

/-- **A bank is what its history makes of it**, for every size and after all requests; the
    points of a run are the ends of its shorter ones. -/
theorem history_decides (size : Offset) (h : 0 ≤ size) :
    ∃ b, create size = .ok b ∧
      ∀ requests, (b.perform requests).Remembers size (b.history requests) := by
  obtain ⟨b, made, total, unlocked, zeroed⟩ := create_of_nonneg h
  refine ⟨b, made, fun requests => ?_⟩
  have inside : ∀ o, 0 ≤ o → o < size → b.Contains o :=
    fun o low high => contains_iff.mpr ⟨low, total ▸ high⟩
  have count : (b.perform requests).size = size := by
    rw [← total]
    unfold Bank.size
    rw [size_perform]
  have none : ∀ o ∈ b.locks, b.Contains o := by
    rw [unlocked]
    exact fun o ho => absurd ho (LockSet.not_mem_empty o)
  refine ⟨fun o low high => ?_, fun o low high => ?_, ⟨(b.perform requests).locks.increasing,
    mem_locks_iff (locks_inside_perform none requests)⟩, fun o out => ?_⟩
  · have there := inside o low high
    rw [read_of_contains_eq (contains_perform.mpr there), byteAt_perform there, zeroed]
  · have there := inside o low high
    have first : decide (o ∈ b.locks) = false := by simp [unlocked]
    rw [isLocked_of_contains (contains_perform.mpr there), locked_perform there, first]
  · have missing : ¬ (b.perform requests).Contains o := fun there => by
      have bounds := contains_iff.mp there
      rw [count] at bounds
      exact out bounds
    rw [read_of_not_contains missing, isLocked_of_not_contains missing,
      lock_of_not_contains missing, unlock_of_not_contains missing, count]
    refine ⟨rfl, rfl, fun value => ?_, rfl, rfl⟩
    rw [write_of_not_contains missing, count]

/-- It holds of a bank of four cells, where a write over a locked cell is refused as a whole. -/
theorem history_decides_four_cells :
    let requests : List Bank.Request :=
      [.writeSlice 0 [1, 2, 3], .lock 1, .writeSlice 1 [8, 9], .write 0 7, .lock 4, .unlock 2]
    (0 : Offset) ≤ 4 ∧ ∃ b, create 4 = .ok b ∧
      (b.perform requests).Remembers 4 (b.history requests) ∧
      (b.perform requests).read 0 = .ok 7 ∧ (b.perform requests).read 2 = .ok 3 ∧
      (b.perform requests).isLocked 1 = .ok true := by
  intro requests
  obtain ⟨b, made, remembers⟩ := history_decides 4 (by decide)
  refine ⟨by decide, b, made, remembers requests, ?_⟩
  cases made
  exact ⟨(remembers requests).content 0 (by decide) (by decide),
    (remembers requests).content 2 (by decide) (by decide),
    (remembers requests).lock 1 (by decide) (by decide)⟩

end ByteMachine.Bank
