import ByteMachine.Instruction.Request

/-!
# How a dispatch table grows

Handlers and names are kept in three maps that nothing ties together. What ties them is that a
table only ever changes by two steps, of which each looks before it writes.

* `Table.Grows t u`: `u` comes from `t` by registering handlers for opcodes that have none, and by
  naming opcodes that have a handler, with names and for opcodes that are both free.
* `grows_serve`: every request makes a table grow, whether it is granted, refused, or refused half
  way; `grows_core`: the table of the core plugin, which is stored without looking, has grown from
  the empty one all the same, since no two of its opcodes are equal.
* `Table.Consistent` is what growing keeps, `Table.Extends` what it never takes away.

`table_consistent` puts this together for whole runs.
-/

namespace ByteMachine

/-- An action moves the state along a relation, whether it succeeds or fails. -/
def Action.Moves {σ α : Type} (R : σ → σ → Prop) (a : Action σ α) : Prop :=
  ∀ s, R s (a.run s).state

theorem Action.Moves.bind {σ α β : Type} {R : σ → σ → Prop} {a : Action σ α}
    {f : α → Action σ β} (trans : ∀ {s t u}, R s t → R t u → R s u) (ha : Moves R a)
    (hf : ∀ x, Moves R (f x)) : Moves R (a >>= f) := by
  intro s
  have first := ha s
  rcases h : a.run s with ⟨fault | x, t, log⟩
  · rw [h] at first
    rw [bind_of_error h]
    exact first
  · rw [h] at first
    rw [bind_of_ok h]
    exact trans first (hf x t)

namespace Table

/-! ## 1. Growing -/

/-- The second table comes from the first by registering and naming what was free. -/
inductive Grows (t : Table) : Table → Prop where
  | refl : Grows t t
  | register {u : Table} {opcode : Opcode} (h : Grows t u) (free : u.find? opcode = none)
      (entry : Entry) : Grows t (u.set opcode entry)
  | name {u : Table} {opcode : Opcode} {entry : Entry} {mnemonic : String} {names : Names}
      (h : Grows t u) (handled : u.find? opcode = some entry)
      (free : u.names.insert? mnemonic opcode = some names) : Grows t { u with names }

theorem Grows.trans {t u v : Table} (first : Grows t u) (second : Grows u v) : Grows t v := by
  induction second with
  | refl => exact first
  | register _ free entry ih => exact ih.register free entry
  | name _ handled free ih => exact ih.name handled free

theorem grows_registerWith (opcode : Opcode) (arity : Arity) (handler : Handler) :
    Action.Moves Grows (registerWith opcode arity handler) := by
  intro t
  cases h : t.find? opcode with
  | some old =>
    rw [registerWith_of_some h]
    exact .refl
  | none =>
    rw [registerWith_of_none h]
    exact Grows.refl.register h _

theorem grows_name (opcode : Opcode) (mnemonic : String) :
    Action.Moves Grows (name opcode mnemonic) := by
  intro t
  cases h : t.find? opcode with
  | none =>
    rw [name_of_none h]
    exact .refl
  | some entry =>
    cases hn : t.names.insert? mnemonic opcode with
    | none =>
      rw [name_of_clash h hn]
      exact .refl
    | some names =>
      rw [name_of_free h hn]
      exact Grows.refl.name h hn

theorem grows_registerConnective (c : Connective) : Action.Moves Grows (registerConnective c) :=
  .bind .trans (grows_registerWith _ _ _) fun _ => grows_name _ _

theorem grows_forM (cs : List Connective) : Action.Moves Grows (cs.forM registerConnective) := by
  induction cs with
  | nil => exact fun t => .refl
  | cons c cs ih =>
    show Action.Moves Grows (registerConnective c >>= fun _ => cs.forM registerConnective)
    exact .bind .trans (grows_registerConnective c) fun _ => ih

/-- **Every request makes a table grow**, whatever comes of it. -/
theorem grows_serve (r : Request) : Action.Moves Grows (serve r) := by
  cases r with
  | register opcode handler arity =>
    cases arity with
    | none => exact grows_registerWith opcode .binary handler
    | some arity => exact grows_registerWith opcode arity handler
  | name opcode mnemonic => exact grows_name opcode mnemonic
  | registerCore => exact grows_forM Connective.all

theorem grows_bundle {t : Table} {c : Connective} (free : t.find? c.opcode = none) :
    Grows t (t.bundle c) := by
  have registered : Grows t (t.set c.opcode c.entry) := Grows.refl.register free _
  cases h : t.names.insert? c.mnemonic c.opcode with
  | none =>
    rw [bundle, h]
    exact registered
  | some names =>
    have handled : (t.set c.opcode c.entry).find? c.opcode = some c.entry := by
      rw [find?_set, if_pos rfl]
    rw [bundle, h]
    exact registered.name handled h

theorem grows_foldl_bundle {cs : List Connective} (distinct : cs.Nodup) {t : Table}
    (free : ∀ c ∈ cs, t.find? c.opcode = none) : Grows t (cs.foldl bundle t) := by
  induction cs generalizing t with
  | nil => exact .refl
  | cons c cs ih =>
    obtain ⟨fresh, rest⟩ := List.nodup_cons.mp distinct
    refine (grows_bundle (free c List.mem_cons_self)).trans (ih rest fun d hd => ?_)
    have apart : c.opcode ≠ d.opcode := fun e => fresh (Connective.opcode_inj e ▸ hd)
    rw [find?_bundle, if_neg apart]
    exact free d (List.mem_cons_of_mem c hd)

/-- The table of the core plugin has grown from the empty one. -/
theorem grows_core : Grows empty core :=
  grows_foldl_bundle (by decide) fun c _ => find?_empty c.opcode

/-! ## 2. What growing keeps -/

/-- Every named opcode has a handler, and names and named opcodes stand for each other. -/
structure Consistent (t : Table) : Prop where
  handled : ∀ opcode, (t.names.mnemonic? opcode).isSome → (t.find? opcode).isSome
  agree : ∀ mnemonic opcode,
    t.names.opcode? mnemonic = some opcode ↔ t.names.mnemonic? opcode = some mnemonic

theorem Consistent.unnamed {t : Table} (h : t.Consistent) {opcode : Opcode}
    (unhandled : t.find? opcode = none) : t.names.mnemonic? opcode = none := by
  rw [← Option.not_isSome_iff_eq_none]
  intro named
  have handled := h.handled opcode named
  rw [unhandled] at handled
  cases handled

theorem consistent_empty : Consistent empty where
  handled _ h := by simp [empty] at h
  agree _ _ := by simp [empty]

/-- A pair that is free on both sides keeps names and opcodes in step. -/
theorem agree_insert? {n after : Names} {mnemonic : String} {opcode : Opcode}
    (agree : ∀ m o, n.opcode? m = some o ↔ n.mnemonic? o = some m)
    (h : n.insert? mnemonic opcode = some after) (m : String) (o : Opcode) :
    after.opcode? m = some o ↔ after.mnemonic? o = some m := by
  obtain ⟨⟨freeName, freeOpcode⟩, byName, byOpcode⟩ := Names.insert?_eq_some h
  rw [byName, byOpcode]
  by_cases hm : mnemonic = m
  · subst hm
    by_cases ho : opcode = o
    · simp [ho]
    · -- The name was free, so no other opcode can have had it.
      have unnamed : n.mnemonic? o ≠ some mnemonic := fun e => by
        rw [(agree mnemonic o).mpr e] at freeName
        cases freeName
      simp [ho, unnamed]
  · by_cases ho : opcode = o
    · subst ho
      -- The opcode was free, so no other name can have stood for it.
      have unused : n.opcode? m ≠ some opcode := fun e => by
        rw [(agree m opcode).mp e] at freeOpcode
        cases freeOpcode
      simp [hm, unused]
    · simp [hm, ho, agree]

theorem Grows.consistent {t u : Table} (h : Grows t u) (ht : t.Consistent) : u.Consistent := by
  induction h with
  | refl => exact ht
  | @register u opcode _ free entry ih =>
    refine ⟨fun key named => ?_, ih.agree⟩
    rw [find?_set]
    split
    · rfl
    · exact ih.handled key named
  | @name u opcode entry mnemonic names _ handled free ih =>
    refine ⟨fun key named => ?_, agree_insert? ih.agree free⟩
    have named : (names.mnemonic? key).isSome := named
    rw [(Names.insert?_eq_some free).2.2 key] at named
    show (u.find? key).isSome
    by_cases e : opcode = key
    · rw [← e, handled]
      rfl
    · rw [if_neg e] at named
      exact ih.handled key named

/-- Whatever the first table knows of an opcode, the second one knows too. -/
structure Extends (t u : Table) : Prop where
  entries : ∀ opcode entry, t.find? opcode = some entry → u.find? opcode = some entry
  names : ∀ opcode mnemonic,
    t.names.mnemonic? opcode = some mnemonic → u.names.mnemonic? opcode = some mnemonic

theorem Grows.extends {t u : Table} (h : Grows t u) : t.Extends u := by
  induction h with
  | refl => exact ⟨fun _ _ h => h, fun _ _ h => h⟩
  | @register u opcode _ free entry ih =>
    refine ⟨fun key old found => ?_, ih.names⟩
    have before := ih.entries key old found
    have other : opcode ≠ key := by
      rintro rfl
      rw [free] at before
      cases before
    rw [find?_set, if_neg other]
    exact before
  | @name u opcode entry mnemonic names _ handled free ih =>
    refine ⟨ih.entries, fun key old found => ?_⟩
    have before := ih.names key old found
    obtain ⟨⟨_, unnamed⟩, _, byOpcode⟩ := Names.insert?_eq_some free
    have other : opcode ≠ key := by
      rintro rfl
      rw [unnamed] at before
      cases before
    show names.mnemonic? key = some old
    rw [byOpcode, if_neg other]
    exact before

/-! ## 3. The listing -/

theorem compare_eq_lt_iff {a b : Opcode} :
    compare a b = .lt ↔ a.plugin < b.plugin ∨ a.plugin = b.plugin ∧ a.command < b.command := by
  show (compare a.plugin b.plugin).then (compare a.command b.command) = .lt ↔ _
  rw [Ordering.then_eq_lt, Std.compare_eq_lt, Std.compare_eq_iff_eq, Std.compare_eq_lt]

theorem pairwise_opcodes (t : Table) :
    t.opcodes.Pairwise fun a b =>
      a.plugin < b.plugin ∨ a.plugin = b.plugin ∧ a.command < b.command :=
  (pairwise_lt_increasing Std.HashMap.nodup_keys).imp compare_eq_lt_iff.mp

theorem mem_opcodes {t : Table} {opcode : Opcode} :
    opcode ∈ t.opcodes ↔ (t.handler? opcode).isSome := by
  rw [opcodes, mem_increasing, Std.HashMap.mem_keys, Std.HashMap.mem_iff_isSome_getElem?, handler?,
    Option.isSome_map]
  rfl

theorem length_opcodes (t : Table) : t.opcodes.length = t.size := by
  rw [opcodes, length_increasing, Std.HashMap.length_keys, size]

/-! ## 4. Whole runs -/

/-- The tables that some requests, granted or refused, can lead to. -/
inductive Reachable : Table → Prop where
  | empty : Reachable .empty
  | default : Reachable default
  | core : Reachable .core
  | serve {t : Table} (h : Reachable t) (r : Request) : Reachable ((serve r).run t).state

theorem Reachable.consistent {t : Table} (h : t.Reachable) : t.Consistent := by
  induction h with
  | empty => exact consistent_empty
  | default => exact consistent_empty
  | core => exact grows_core.consistent consistent_empty
  | serve _ r ih => exact (grows_serve r _).consistent ih

/-- The table after some requests, each of which may be granted or refused. -/
def perform (t : Table) (requests : List Request) : Table :=
  requests.foldl (fun t r => ((serve r).run t).state) t

theorem grows_perform (t : Table) (requests : List Request) : Grows t (t.perform requests) := by
  induction requests generalizing t with
  | nil => exact .refl
  | cons r requests ih => exact (grows_serve r t).trans (ih _)

theorem opcodeOf_eq_ok_iff {t : Table} {mnemonic : String} {opcode : Opcode} :
    t.opcodeOf mnemonic = .ok opcode ↔ t.names.opcode? mnemonic = some opcode := by
  unfold opcodeOf
  cases t.names.opcode? mnemonic <;> simp

/-- **A dispatch table is consistent at every point of every run**: only opcodes with a handler
    are named; names and named opcodes find each other; the listing is strictly increasing and
    complete; and whatever is registered or named stays so. -/
theorem table_consistent {t : Table} (h : t.Reachable) :
    (∀ opcode, (t.mnemonic? opcode).isSome → (t.handler? opcode).isSome) ∧
    (∀ mnemonic opcode,
      t.opcodeOf mnemonic = .ok opcode ↔ t.mnemonic? opcode = some mnemonic) ∧
    (t.opcodes.Pairwise (fun a b =>
        a.plugin < b.plugin ∨ a.plugin = b.plugin ∧ a.command < b.command) ∧
      (∀ opcode, opcode ∈ t.opcodes ↔ (t.handler? opcode).isSome) ∧
      t.size = t.opcodes.length) ∧
    ∀ later opcode,
      (∀ handler, t.handler? opcode = some handler →
        (t.perform later).handler? opcode = some handler) ∧
      (∀ arity, t.arity? opcode = some arity → (t.perform later).arity? opcode = some arity) ∧
      ∀ mnemonic, t.mnemonic? opcode = some mnemonic →
        (t.perform later).mnemonic? opcode = some mnemonic := by
  refine ⟨fun opcode named => ?_, fun mnemonic opcode => ?_,
    ⟨t.pairwise_opcodes, fun _ => mem_opcodes, t.length_opcodes.symm⟩,
    fun later opcode => ?_⟩
  · rw [handler?, Option.isSome_map]
    exact h.consistent.handled opcode named
  · rw [opcodeOf_eq_ok_iff]
    exact h.consistent.agree mnemonic opcode
  · have extended := (t.grows_perform later).extends
    refine ⟨fun handler found => ?_, fun arity found => ?_, extended.names opcode⟩
    · obtain ⟨entry, he, rfl⟩ := Option.map_eq_some_iff.mp found
      rw [handler?, extended.entries opcode entry he]
      rfl
    · obtain ⟨entry, he, rfl⟩ := Option.map_eq_some_iff.mp found
      rw [arity?, extended.entries opcode entry he]
      rfl

/-- It holds where loading the core plugin is refused half way: here `0.3` is taken. -/
theorem table_consistent_half_loaded :
    let taken := ((serve (.register ⟨0, 3⟩ Connective.and.handler none)).run empty).state
    let half := (registerCore.run taken).state
    half.Reachable ∧
      ∀ mnemonic opcode,
        half.opcodeOf mnemonic = .ok opcode ↔ half.mnemonic? opcode = some mnemonic :=
  have reached := (Reachable.empty.serve _).serve .registerCore
  ⟨reached, (table_consistent reached).2.1⟩

end Table

end ByteMachine
