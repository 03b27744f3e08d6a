import ByteMachine.Proofs.Machine.Run
import ByteMachine.Proofs.Memory.Effect

/-!
# Write-locks hold over whole runs

The points of a run are the machines between its single requests (`Machine.trail`). One request
leaves the memory as it is or has one of the effects of `Bank.Effect` (`memory_moment`); what all
of these keep, a chain of requests keeps.

`write_locks_hold`: at every point of every run the memory has the cells it was made with, all
locked offsets lie inside it, and a locked cell keeps its byte and its lock up to the point where
it is unlocked.
-/

namespace ByteMachine

/-! ## 1. What a request can do to the memory of a machine -/

namespace Machine

/-- Requests to other parts of the machine leave its memory alone. -/
theorem memory_serve_of_ne {request : Machine.Request} (other : ∀ q, request ≠ .memory q)
    (m : Machine) : ((serve request).run m).state.memory = m.memory := by
  cases request with
  | memory q => exact absurd rfl (other q)
  | ret =>
    cases h : m.stack.returns with
    | cons target rest =>
      rw [serve, Action.bind_of_ok (returnFromCall_of_cons h)]
      rfl
    | nil => rw [serve, Action.bind_of_error (returnFromCall_of_nil h)]
  | registers | stack | ip | jump | advance | call => rfl

/-- At every moment the memory is as before, or a request to it has had its effect. -/
theorem memory_moment (m : Machine) (request : Machine.Request) :
    (m.moment request).machine.memory = m.memory ∨
    ∃ q, request = .memory q ∧
      m.memory.Effect q (m.moment request).granted (m.moment request).machine.memory := by
  by_cases h : ∃ q, request = .memory q
  · obtain ⟨q, rfl⟩ := h
    exact .inr ⟨q, rfl, m.memory.effect_serve q⟩
  · exact .inl (memory_serve_of_ne (fun q e => h ⟨q, e⟩) m)

end Machine

/-! ## 2. What a chain of requests keeps -/

/-- The moment takes the lock off a cell. -/
def Moment.Unlocks (x : Moment) (o : Offset) : Prop :=
  x.request = .memory (.unlock o) ∧ x.granted = true

namespace Machine

theorem Chained.size_eq {m : Machine} {xs : List Moment} (h : m.Chained xs) :
    (m.after xs).memory.cells.size = m.memory.cells.size := by
  induction xs generalizing m with
  | nil => rfl
  | cons x xs ih =>
    obtain ⟨hx, rest⟩ := h
    rw [after_cons, ih rest, hx]
    rcases m.memory_moment x.request with same | ⟨q, _, effect⟩
    · rw [same]
    · exact effect.size_eq

theorem Chained.locks_inside {m : Machine} {xs : List Moment} (h : m.Chained xs)
    (inside : ∀ o ∈ m.memory.locks, m.memory.Contains o) :
    ∀ o ∈ (m.after xs).memory.locks, (m.after xs).memory.Contains o := by
  induction xs generalizing m with
  | nil => exact inside
  | cons x xs ih =>
    obtain ⟨hx, rest⟩ := h
    rw [after_cons]
    refine ih rest ?_
    rw [hx]
    rcases m.memory_moment x.request with same | ⟨q, _, effect⟩
    · rw [same]
      exact inside
    · exact effect.locks_inside inside

theorem Chained.keeps_locked {m : Machine} {xs : List Moment} (h : m.Chained xs) {o : Offset}
    (locked : o ∈ m.memory.locks) (guarded : ∀ x ∈ xs, ¬ x.Unlocks o) :
    o ∈ (m.after xs).memory.locks ∧ (m.after xs).memory.read o = m.memory.read o := by
  induction xs generalizing m with
  | nil => exact ⟨locked, rfl⟩
  | cons x xs ih =>
    obtain ⟨hx, rest⟩ := h
    have now : o ∈ x.machine.memory.locks ∧ x.machine.memory.read o = m.memory.read o := by
      have here := guarded x List.mem_cons_self
      rw [hx] at here ⊢
      rcases m.memory_moment x.request with same | ⟨q, hq, effect⟩
      · rw [same]
        exact ⟨locked, rfl⟩
      · refine effect.keeps_locked locked fun ⟨unlock, granted⟩ => here ⟨?_, granted⟩
        exact hq.trans (congrArg _ unlock)
    obtain ⟨still, same⟩ := ih rest now.1 fun y hy => guarded y (List.mem_cons_of_mem _ hy)
    exact ⟨still, same.trans now.2⟩

/-! ## 3. Protection -/

/-- What write-locks promise of a run of `steps` from `m`, whose memory has `size` cells. A point
    of the run is given by the requests before it. -/
structure LocksHold (m : Machine) (size : Offset) (steps : List Step) : Prop where
  /-- The run is the chain of its requests. -/
  run : m.Chained (m.trail steps) ∧ m.perform steps = m.after (m.trail steps)
  /-- The number of cells never changes. -/
  cells : ∀ xs ys, m.trail steps = xs ++ ys →
    ((m.after xs).memory.cells.size : Int) = size.toInt
  /-- Only cells are ever locked. -/
  inside : ∀ xs ys, m.trail steps = xs ++ ys →
    ∀ o ∈ (m.after xs).memory.locks, 0 ≤ o ∧ o < size
  /-- A locked cell stays as it is until it is unlocked. -/
  kept : ∀ xs ys zs o, m.trail steps = xs ++ ys ++ zs → o ∈ (m.after xs).memory.locks →
    (∀ y ∈ ys, ¬ y.Unlocks o) →
    o ∈ (m.after (xs ++ ys)).memory.locks ∧
      (m.after (xs ++ ys)).memory.read o = (m.after xs).memory.read o

/-- A fresh machine has the size that was asked for and no locks. -/
theorem create_of_nonneg {config : Config} (h : 0 ≤ config.memorySize) :
    ∃ m, create config = .ok m ∧ m.memory.locks = .empty ∧
      m.memory.cells.size = config.memorySize.toNatClampNeg := by
  simp only [create, Bank.create, h, if_true, bind, Except.bind, pure, Except.pure]
  exact ⟨_, rfl, rfl, Array.size_replicate⟩

/-- After any run of a fresh machine, only cells are locked. -/
theorem locks_inside_perform {config : Config} {m : Machine} (made : create config = .ok m)
    (steps : List Step) :
    ∀ o ∈ (m.perform steps).memory.locks, (m.perform steps).memory.Contains o := by
  have unlocked : m.memory.locks = .empty := by
    by_cases h : 0 ≤ config.memorySize
    · obtain ⟨m', made', unlocked, _⟩ := create_of_nonneg h
      rw [made'] at made
      cases made
      exact unlocked
    · simp [create, Bank.create, h, bind, Except.bind] at made
  rw [perform_eq_after]
  refine (m.chained_trail steps).locks_inside fun o locked => ?_
  rw [unlocked] at locked
  exact absurd locked (LockSet.not_mem_empty o)

/-- **Write-locks hold over whole runs**: for a machine of any size and any steps. -/
theorem write_locks_hold (config : Config) (h : 0 ≤ config.memorySize) :
    ∃ m, create config = .ok m ∧ ∀ steps, m.LocksHold config.memorySize steps := by
  obtain ⟨m, made, unlocked, size⟩ := create_of_nonneg h
  refine ⟨m, made, fun steps => ?_⟩
  have chained := m.chained_trail steps
  have count : ∀ xs ys, m.trail steps = xs ++ ys →
      ((m.after xs).memory.cells.size : Int) = config.memorySize.toInt := by
    intro xs ys split
    rw [split, chained_append] at chained
    rw [chained.1.size_eq, size, Int64.cast_toNatClampNeg _ h]
  refine ⟨⟨chained, m.perform_eq_after steps⟩, count, fun xs ys split o locked => ?_,
    fun xs ys zs o split locked guarded => ?_⟩
  · have none : ∀ o ∈ m.memory.locks, m.memory.Contains o := by
      rw [unlocked]
      exact fun o ho => absurd ho (LockSet.not_mem_empty o)
    have total := count xs ys split
    rw [split, chained_append] at chained
    obtain ⟨low, high⟩ := chained.1.locks_inside none o locked
    refine ⟨low, Int64.lt_iff_toInt_lt.mpr ?_⟩
    rw [← total, ← Int64.cast_toNatClampNeg o low]
    exact Int.ofNat_lt.mpr high
  · rw [split, List.append_assoc, chained_append, chained_append] at chained
    rw [after_append]
    exact chained.2.1.keeps_locked locked guarded

/-- It holds of a machine of two cells, and so of locking the first and then running `and` on
    both, which is refused. -/
theorem write_locks_hold_two_cells :
    (0 : Offset) ≤ 2 ∧ ∃ m, create { memorySize := 2 } = .ok m ∧
      m.LocksHold 2 [.ask (.memory (.lock 0)), .dispatch .core ⟨0, 0⟩ 0 1] := by
  obtain ⟨m, made, holds⟩ := write_locks_hold { memorySize := 2 } (by decide)
  exact ⟨by decide, m, made, holds _⟩

end Machine

end ByteMachine
