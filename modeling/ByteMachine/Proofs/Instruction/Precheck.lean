import ByteMachine.Proofs.Instruction.Dispatch

/-!
# The look-up before a handler

Dispatching looks up the cells that a handler reads before it runs the handler, which looks them up
again. For a connective the first look-up shows in one case only.

* `Table.dispatch_alike`: where a handler itself reports the offset that the look-up would report,
  dispatching ends as the handler does. Nothing else is assumed of the handler.
* `inspected_eq`: every connective but `imp` looks its cells up in the order in which dispatching
  does. `imp` begins with the source, so the two orders name different offsets if both offsets
  name no cell and differ (`Connective.Crossed`).

`lookup_transparent` puts the two together.
-/

namespace ByteMachine

/-! ## 1. Handlers that report for themselves -/

/-- **A look-up is not noticed if the handler would report the same offset.** -/
theorem Table.dispatch_alike {t : Table} {m : Machine} {opcode : Opcode} {entry : Entry}
    {first second : Offset} (found : t.find? opcode = some entry)
    (reports : ∀ o,
      (inspected entry.arity first second).find? (fun o => ¬ m.memory.Contains o) = some o →
      (entry.handler first second).Ends m (.error (.outOfRange o m.memory.size)) m) :
    (t.dispatch opcode first second).Alike (entry.handler first second) m := by
  cases out : (inspected entry.arity first second).find? (fun o => ¬ m.memory.Contains o) with
  | some o => exact (Action.ends_of_run (dispatch_of_outside found out)).alike (reports o out)
  | none => exact dispatch_alike_of_cells found (by simpa using out)

namespace Connective

variable {k : Connective} {m : Machine} {dst src : Offset}

/-! ## 2. The order of looking up -/

/-- `imp` on two different offsets that both name no cell. -/
structure Crossed (k : Connective) (m : Machine) (dst src : Offset) : Prop where
  isImp : k = .imp
  dst_outside : dst < 0 ∨ m.memory.size ≤ dst
  src_outside : src < 0 ∨ m.memory.size ≤ src
  apart : dst ≠ src

/-- All others look their cells up in the order in which dispatching does. -/
theorem inspected_eq (other : k ≠ .imp) :
    k.inspected dst src = Table.inspected k.arity dst src := by
  cases k <;> first | exact absurd rfl other | rfl

/-- Both orders find the same offset first, unless they cross. -/
theorem find?_inspected_eq (straight : ¬ k.Crossed m dst src) :
    (k.inspected dst src).find? (fun o => ¬ m.memory.Contains o) =
      (Table.inspected k.arity dst src).find? (fun o => ¬ m.memory.Contains o) := by
  by_cases other : k = .imp
  · subst other
    show [src, dst].find? _ = [dst, src].find? _
    -- Where one of the two names a cell, either order is left with the other one.
    by_cases hd : m.memory.Contains dst
    · by_cases hs : m.memory.Contains src <;> simp [hd, hs]
    · by_cases hs : m.memory.Contains src
      · simp [hd, hs]
      · have shared : dst = src := Classical.byContradiction fun apart =>
          straight ⟨rfl, Bank.not_contains_iff.mp hd, Bank.not_contains_iff.mp hs, apart⟩
        rw [shared]
  · rw [inspected_eq other]

/-! ## 3. Dispatching a connective -/

theorem dispatch_alike_handler (straight : ¬ k.Crossed m dst src) :
    (Table.core.dispatch k.opcode dst src).Alike (k.handler dst src) m :=
  Table.dispatch_alike (Table.find?_core k) fun _ out =>
    Action.ends_of_run (k.handler_of_outside ((find?_inspected_eq straight).trans out))

/-- The handler of `imp` begins with the source. -/
theorem Crossed.handler (h : k.Crossed m dst src) :
    (k.handler dst src).Ends m (.error (.outOfRange src m.memory.size)) m := by
  obtain ⟨rfl, _, hs, _⟩ := h
  refine Action.ends_of_run (handler_of_outside imp ?_)
  simp [inspected, Bank.not_contains_iff.mpr hs]

/-- Dispatching begins with the destination. -/
theorem Crossed.dispatch (h : k.Crossed m dst src) :
    (Table.core.dispatch k.opcode dst src).Ends m (.error (.outOfRange dst m.memory.size)) m := by
  obtain ⟨rfl, hd, _, _⟩ := h
  refine Action.ends_of_run (Table.dispatch_of_outside (Table.find?_core imp) ?_)
  simp [Table.inspected, entry, arity, Bank.not_contains_iff.mpr hd]

/-- **Looking the cells up before a connective changes nothing but one report.** On any machine
    and any two offsets the connective, called directly or dispatched by the core table, leaves
    the same machine and succeeds or fails alike. It fails for the same reason except if `imp` is
    given two different offsets that both name no cell: called directly it reports the source,
    dispatched the destination. -/
theorem lookup_transparent (k : Connective) (m : Machine) (dst src : Offset) :
    let direct := (k.handler dst src).run m
    let checked := (Table.core.dispatch k.opcode dst src).run m
    checked.state = direct.state ∧
    (checked.result = .ok () ↔ direct.result = .ok ()) ∧
    (checked.result = direct.result ↔ ¬ k.Crossed m dst src) ∧
    (k.Crossed m dst src →
      direct.result = .error (.outOfRange src m.memory.size) ∧
      checked.result = .error (.outOfRange dst m.memory.size)) := by
  intro direct checked
  by_cases crossed : k.Crossed m dst src
  · have source : direct.result = .error (.outOfRange src m.memory.size) := crossed.handler.1
    have destination : checked.result = .error (.outOfRange dst m.memory.size) :=
      crossed.dispatch.1
    have state : checked.state = direct.state := crossed.dispatch.2.trans crossed.handler.2.symm
    rw [source, destination]
    refine ⟨state, iff_of_false nofun nofun, iff_of_false ?_ (not_not_intro crossed),
      fun _ => ⟨rfl, rfl⟩⟩
    rintro ⟨⟩
    exact crossed.apart rfl
  · obtain ⟨result, state⟩ := dispatch_alike_handler crossed
    exact ⟨state, iff_of_eq (congrArg (· = _) result), iff_of_true result crossed,
      fun h => absurd h crossed⟩

/-- The exception is met: a machine of two cells, `imp` on the offsets -1 and 2. -/
theorem lookup_transparent_two_outside :
    ∃ m, Machine.create { memorySize := 2 } = .ok m ∧ imp.Crossed m (-1) 2 ∧
      ((imp.handler (-1) 2).run m).result = .error (.outOfRange 2 2) ∧
      ((Table.core.dispatch imp.opcode (-1) 2).run m).result = .error (.outOfRange (-1) 2) := by
  obtain ⟨m, made, size⟩ : ∃ m, Machine.create { memorySize := 2 } = .ok m ∧ m.memory.size = 2 :=
    ⟨_, rfl, rfl⟩
  have crossed : imp.Crossed m (-1) 2 :=
    ⟨rfl, .inl (by decide), .inr (by rw [size]; decide), by decide⟩
  obtain ⟨direct, checked⟩ := (lookup_transparent imp m (-1) 2).2.2.2 crossed
  rw [size] at direct checked
  exact ⟨m, made, crossed, direct, checked⟩

end Connective

end ByteMachine
