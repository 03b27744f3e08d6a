import ByteMachine.Proofs.Instruction.CoreExecution
import ByteMachine.Proofs.Instruction.LoadOrder

/-!
# Loading the core plugin into a table that is already in use

`Table.registerCore` registers and names the eight connectives one after another and stops at the
first request that is refused, so that it can leave a plugin half loaded, and even a connective
registered but not named.

* `Table.Clashes t c`: the opcode of the connective has a handler in the table, or its name is
  taken there. What the plugin itself has added so far is not seen by the connectives that are
  still to come (`Adds.unseen`).
* `registerConnective_of_free`, `registerConnective_of_handled`, `registerConnective_of_named`: how
  the two requests for one connective end. That its opcode has no name of its own where it has no
  handler is what `Table.Consistent` is needed for.
* `load_of_free`: connectives that do not clash are all loaded, and the table is then the one that
  bundling them gives. `load_of_handled` and `load_of_named` say what the first clash leaves.

`registerCore_stops_at_clash` says where loading stops and what it leaves, and that a table in which
it was tried once refuses it ever after.
-/

namespace ByteMachine

theorem Connective.mnemonic_inj {c d : Connective} (h : c.mnemonic = d.mnemonic) : c = d := by
  have found := ofName?_mnemonic c
  rw [h, ofName?_mnemonic] at found
  exact (Option.some.inj found).symm

theorem Connective.all_eq_of_place {n : Nat} {c : Connective} (h : all[n]? = some c) :
    all = all.take n ++ c :: all.drop (n + 1) := by
  obtain ⟨bound, rfl⟩ := List.getElem?_eq_some_iff.mp h
  rw [← List.drop_eq_getElem_cons bound, List.take_append_drop]

namespace Table

/-! ## 1. What loading adds, and what stands in its way -/

/-- The requests that load some connectives, one after another. -/
def loadOf (cs : List Connective) : List Request :=
  cs.flatMap fun c =>
    [.register c.opcode c.handler (some c.arity), .name c.opcode c.mnemonic]

/-- The opcode of the connective has a handler, or its name is taken. -/
def Clashes (t : Table) (c : Connective) : Prop :=
  (t.handler? c.opcode).isSome ∨ ∃ opcode, t.opcodeOf c.mnemonic = .ok opcode

theorem registrations_loadOf (cs : List Connective) :
    registrations (loadOf cs) = cs.map fun c => (c.opcode, c.entry) := by
  induction cs with
  | nil => rfl
  | cons c cs ih =>
    rw [List.map_cons, ← ih]
    rfl

theorem labels_loadOf (cs : List Connective) :
    labels (loadOf cs) = cs.map fun c => (c.opcode, c.mnemonic) := by
  induction cs with
  | nil => rfl
  | cons c cs ih =>
    rw [List.map_cons, ← ih]
    rfl

section Clashes

variable {t u : Table} {c d : Connective} {cs : List Connective}

theorem clashes_def : t.Clashes c ↔
    (∃ entry, t.find? c.opcode = some entry) ∨
      ∃ opcode, t.names.opcode? c.mnemonic = some opcode := by
  unfold Clashes
  simp only [isSome_handler?, opcodeOf_eq_ok_iff]

theorem not_clashes : ¬ t.Clashes c ↔
    t.find? c.opcode = none ∧ t.names.opcode? c.mnemonic = none := by
  rw [clashes_def, not_or]
  simp only [not_exists, Option.eq_none_iff_forall_ne_some, ne_eq]

/-- Loading some connectives is not seen by those that are not among them. -/
theorem Adds.unseen (added : t.Adds (loadOf cs) u) (fresh : d ∉ cs) :
    u.find? d.opcode = t.find? d.opcode ∧
    u.names.opcode? d.mnemonic = t.names.opcode? d.mnemonic := by
  refine ⟨Option.ext fun entry => ?_, Option.ext fun opcode => ?_⟩
  · rw [added.entries, registrations_loadOf, List.mem_map, or_iff_left]
    rintro ⟨c, hc, same⟩
    exact fresh (Connective.opcode_inj (congrArg Prod.fst same) ▸ hc)
  · rw [added.byMnemonic, labels_loadOf, List.mem_map, or_iff_left]
    rintro ⟨c, hc, same⟩
    exact fresh (Connective.mnemonic_inj (congrArg Prod.snd same) ▸ hc)

theorem Adds.clashes_iff (added : t.Adds (loadOf cs) u) (fresh : d ∉ cs) :
    u.Clashes d ↔ t.Clashes d := by
  obtain ⟨sameEntry, sameName⟩ := added.unseen fresh
  rw [clashes_def, clashes_def, sameEntry, sameName]

end Clashes

/-! ## 2. One connective -/

section Step

variable {t : Table} {c : Connective}

/-- A connective that does not clash is registered and named. -/
theorem registerConnective_of_free (ht : t.Consistent) (free : ¬ t.Clashes c) :
    (registerConnective c).run t =
      ⟨.ok (), t.bundle c, [.registering c.opcode c.arity, .naming c.opcode c.mnemonic]⟩ ∧
    t.Adds (loadOf [c]) (t.bundle c) := by
  obtain ⟨unhandled, unused⟩ := not_clashes.mp free
  have unnamed := ht.unnamed unhandled
  cases entered : t.names.insert? c.mnemonic c.opcode with
  | none =>
    have taken := Names.insert?_eq_none.mp entered
    simp [unused, unnamed] at taken
  | some names =>
    have handled : (t.set c.opcode c.entry).find? c.opcode = some c.entry := by
      rw [find?_set, if_pos rfl]
    have bundled : t.bundle c = { t.set c.opcode c.entry with names } := by
      rw [bundle, entered]
      rfl
    have registered := registerWith_of_none unhandled c.arity c.handler
    refine ⟨?_, ?_⟩
    · rw [registerConnective, Action.bind_of_ok registered]
      simp only [show Entry.mk c.handler c.arity = c.entry from rfl,
        name_of_free handled entered, bundled]
      rfl
    · rw [bundled]
      exact (adds_set unhandled rfl rfl).cons (adds_names entered)

/-- A connective whose opcode has a handler is refused at once. -/
theorem registerConnective_of_handled {old : Entry} (handled : t.find? c.opcode = some old) :
    (registerConnective c).run t =
      ⟨.error (.duplicateHandler c.opcode), t, [.handlerClash c.opcode]⟩ :=
  Action.bind_of_error (registerWith_of_some handled c.arity c.handler)

/-- A connective whose name is taken is registered, and then refused. -/
theorem registerConnective_of_named {other : Opcode} (unhandled : t.find? c.opcode = none)
    (taken : t.names.opcode? c.mnemonic = some other) :
    (registerConnective c).run t =
      ⟨.error (.duplicateMnemonic c.mnemonic), t.set c.opcode c.entry,
        [.registering c.opcode c.arity, .nameClash c.mnemonic c.opcode]⟩ := by
  have handled : (t.set c.opcode c.entry).find? c.opcode = some c.entry := by
    rw [find?_set, if_pos rfl]
  have clash : t.names.insert? c.mnemonic c.opcode = none := by
    rw [Names.insert?_eq_none, taken]
    exact .inl rfl
  rw [registerConnective, Action.bind_of_ok (registerWith_of_none unhandled c.arity c.handler)]
  simp only [show Entry.mk c.handler c.arity = c.entry from rfl, name_of_clash handled clash]
  rfl

/-- Tried once, a connective has a handler, whatever came of it. -/
theorem handled_registerConnective (t : Table) (c : Connective) :
    ∃ entry, ((registerConnective c).run t).state.find? c.opcode = some entry := by
  cases h : t.find? c.opcode with
  | some old =>
    rw [registerConnective_of_handled h]
    exact ⟨old, h⟩
  | none =>
    rw [registerConnective, Action.bind_of_ok (registerWith_of_none h c.arity c.handler)]
    refine ⟨c.entry, (grows_name c.opcode c.mnemonic _).extends.entries c.opcode c.entry ?_⟩
    rw [find?_set, if_pos rfl]
    rfl

end Step

/-! ## 3. Connectives one after another -/

section Run

variable {t : Table} {c : Connective} {cs before after : List Connective}

/-- **Connectives that do not clash are all loaded.** -/
theorem load_of_free (distinct : cs.Nodup) (ht : t.Consistent) (free : ∀ c ∈ cs, ¬ t.Clashes c) :
    (cs.forM registerConnective).Ends t (.ok ()) (cs.foldl bundle t) ∧
    t.Adds (loadOf cs) (cs.foldl bundle t) := by
  induction cs generalizing t with
  | nil => exact ⟨⟨rfl, rfl⟩, adds_nil t⟩
  | cons c cs ih =>
    obtain ⟨fresh, rest⟩ := List.nodup_cons.mp distinct
    obtain ⟨run, added⟩ := registerConnective_of_free ht (free c List.mem_cons_self)
    have consistent : (t.bundle c).Consistent := by
      have grown := (grows_registerConnective c t).consistent ht
      rwa [run] at grown
    -- What was loaded so far clashes with nothing that is still to come.
    have free' : ∀ d ∈ cs, ¬ (t.bundle c).Clashes d := by
      intro d hd
      have other : d ∉ [c] := fun same => fresh (List.mem_singleton.mp same ▸ hd)
      rw [added.clashes_iff other]
      exact free d (List.mem_cons_of_mem c hd)
    obtain ⟨later, more⟩ := ih rest consistent free'
    exact ⟨(Action.ends_of_run run).bind later, added.append more⟩

/-- Loading runs up to the first connective that is refused, and ends as that one does. -/
theorem load_of_refused (distinct : before.Nodup) (ht : t.Consistent)
    (free : ∀ d ∈ before, ¬ t.Clashes d) {fault : Fault} {u : Table}
    (refused : (registerConnective c).Ends (before.foldl bundle t) (.error fault) u) :
    ((before ++ c :: after).forM registerConnective).Ends t (.error fault) u := by
  have split : (before ++ c :: after).forM registerConnective =
      (before.forM registerConnective >>= fun _ => (c :: after).forM registerConnective) :=
    List.forM_append
  rw [split]
  exact (load_of_free distinct ht free).1.bind refused.bind_error

/-- Loading stops before a connective whose opcode has a handler. -/
theorem load_of_handled (distinct : (before ++ c :: after).Nodup) (ht : t.Consistent)
    (free : ∀ d ∈ before, ¬ t.Clashes d) {old : Entry} (handled : t.find? c.opcode = some old) :
    ∃ u, ((before ++ c :: after).forM registerConnective).Ends t
        (.error (.duplicateHandler c.opcode)) u ∧
      t.Adds (loadOf before) u := by
  obtain ⟨first, _, apart⟩ := List.nodup_append.mp distinct
  have fresh : c ∉ before := fun hc => apart c hc c List.mem_cons_self rfl
  obtain ⟨_, added⟩ := load_of_free first ht free
  have handled' := (added.unseen fresh).1.trans handled
  exact ⟨_, load_of_refused first ht free
    (Action.ends_of_run (registerConnective_of_handled handled')), added⟩

/-- Loading stops half way through a connective of which only the name is taken, and leaves its
    opcode with a handler and without a name. -/
theorem load_of_named (distinct : (before ++ c :: after).Nodup) (ht : t.Consistent)
    (free : ∀ d ∈ before, ¬ t.Clashes d) (unhandled : t.find? c.opcode = none) {other : Opcode}
    (taken : t.names.opcode? c.mnemonic = some other) :
    ∃ u, ((before ++ c :: after).forM registerConnective).Ends t
        (.error (.duplicateMnemonic c.mnemonic)) u ∧
      t.Adds (loadOf before ++ [.register c.opcode c.handler (some c.arity)]) u ∧
      u.mnemonic? c.opcode = none := by
  obtain ⟨first, _, apart⟩ := List.nodup_append.mp distinct
  have fresh : c ∉ before := fun hc => apart c hc c List.mem_cons_self rfl
  obtain ⟨loaded, added⟩ := load_of_free first ht free
  obtain ⟨sameEntry, sameName⟩ := added.unseen fresh
  have unhandled' := sameEntry.trans unhandled
  have run := registerConnective_of_named unhandled' (sameName.trans taken)
  refine ⟨_, load_of_refused first ht free (Action.ends_of_run run),
    added.append (adds_set unhandled' rfl rfl), ?_⟩
  -- Before it was registered here the opcode had no handler, and so no name.
  have consistent : (before.foldl bundle t).Consistent := by
    have grown := (grows_forM before t).consistent ht
    rwa [loaded.2] at grown
  exact consistent.unnamed unhandled'

end Run

/-! ## 4. The core plugin -/

section Core

variable {t : Table}

/-- A table without handlers has no names either, and so is like the empty one. -/
theorem adds_nil_of_isEmpty (ht : t.Consistent) (h : t.isEmpty = true) : empty.Adds [] t := by
  have unhandled (opcode : Opcode) : t.find? opcode = none := Std.HashMap.getElem?_of_isEmpty h
  have unnamed (opcode : Opcode) : t.names.mnemonic? opcode = none :=
    ht.unnamed (unhandled opcode)
  have unused (mnemonic : String) : t.names.opcode? mnemonic = none := by
    rw [Option.eq_none_iff_forall_ne_some]
    intro opcode used
    rw [ht.agree, unnamed] at used
    cases used
  exact {
    entries := by simp [unhandled, registrations]
    byMnemonic := by simp [unused, labels, empty]
    byOpcode := by simp [unnamed, labels, empty] }

theorem registerCore_of_free (ht : t.Consistent) (free : ∀ c, ¬ t.Clashes c) :
    registerCore.Ends t (.ok ()) (Connective.all.foldl bundle t) ∧
    t.Adds (loadOf Connective.all) (Connective.all.foldl bundle t) :=
  load_of_free (by decide) ht fun c _ => free c

/-- Loading the core plugin into a table without handlers makes it the core table. -/
theorem registerCore_of_isEmpty (ht : t.Consistent) (h : t.isEmpty = true) :
    ∃ u, registerCore.Ends t (.ok ()) u ∧ u.Agrees core := by
  have blank : empty.Adds (loadOf []) t := adds_nil_of_isEmpty ht h
  have free (c : Connective) : ¬ empty.Clashes c := by
    rw [not_clashes]
    exact ⟨find?_empty c.opcode, by simp [empty]⟩
  have free' (c : Connective) : ¬ t.Clashes c := by
    rw [blank.clashes_iff List.not_mem_nil]
    exact free c
  obtain ⟨ends, added⟩ := registerCore_of_free ht free'
  have core := (registerCore_of_free consistent_empty free).2
  exact ⟨_, ends, (blank.append added).agrees core (.refl _)⟩

/-- After its first connective loading only adds to the table. -/
theorem grows_first_registerCore (t : Table) :
    Grows ((registerConnective .and).run t).state (registerCore.run t).state := by
  rcases h : (registerConnective .and).run t with ⟨fault | _, u, log⟩
  · rw [show registerCore.run t = ⟨.error fault, u, log⟩ from Action.bind_of_error h]
    exact .refl
  · rw [show registerCore.run t = _ from Action.bind_of_ok h]
    exact grows_forM Connective.all.tail u

/-- A table in which loading was tried refuses it at the first connective, whatever is asked of
    the table in between. -/
theorem registerCore_again (t : Table) (later : List Request) :
    let again := (registerCore.run t).state.perform later
    registerCore.Ends again (.error (.duplicateHandler ⟨0, 0⟩)) again := by
  intro again
  -- The first connective had a handler then, and no handler is ever taken away.
  obtain ⟨entry, first⟩ := handled_registerConnective t .and
  have grown : Grows ((registerConnective .and).run t).state again :=
    (grows_first_registerCore t).trans (grows_perform _ later)
  have handled := grown.extends.entries _ entry first
  exact (Action.ends_of_run (registerConnective_of_handled handled)).bind_error

/-- **Loading the core plugin stops at the first connective that clashes.** Without a clash the
    eight connectives are added, and nothing else; a table without handlers is then the core table.
    Otherwise exactly the connectives before the first clash are added, and where only the name of
    that one is taken it is registered and left unnamed. Once loading was tried, it is refused at
    `0.0` for ever and changes nothing. -/
theorem registerCore_stops_at_clash (h : t.Reachable) :
    ((∀ c, ¬ t.Clashes c) →
      ∃ u, registerCore.Ends t (.ok ()) u ∧ t.Adds (loadOf Connective.all) u) ∧
    (t.isEmpty = true → ∃ u, registerCore.Ends t (.ok ()) u ∧ u.Agrees core) ∧
    (∀ k c, Connective.all[k]? = some c → t.Clashes c →
      (∀ d ∈ Connective.all.take k, ¬ t.Clashes d) →
      ((t.handler? ⟨0, Int32.ofNat k⟩).isSome →
        ∃ u, registerCore.Ends t (.error (.duplicateHandler ⟨0, Int32.ofNat k⟩)) u ∧
          t.Adds (loadOf (Connective.all.take k)) u) ∧
      (t.handler? ⟨0, Int32.ofNat k⟩ = none →
        ∃ u, registerCore.Ends t (.error (.duplicateMnemonic c.mnemonic)) u ∧
          t.Adds (loadOf (Connective.all.take k) ++
            [.register ⟨0, Int32.ofNat k⟩ c.handler (some c.arity)]) u ∧
          u.mnemonic? ⟨0, Int32.ofNat k⟩ = none)) ∧
    ∀ later,
      let again := (registerCore.run t).state.perform later
      registerCore.Ends again (.error (.duplicateHandler ⟨0, 0⟩)) again := by
  have ht := h.consistent
  refine ⟨fun free => ⟨_, registerCore_of_free ht free⟩, registerCore_of_isEmpty ht,
    fun k c place clash free => ?_, registerCore_again t⟩
  have split := Connective.all_eq_of_place place
  have distinct : (Connective.all.take k ++ c :: Connective.all.drop (k + 1)).Nodup :=
    split ▸ by decide
  have whole : registerCore = (Connective.all.take k ++ c :: Connective.all.drop (k + 1)).forM
      registerConnective := congrArg (List.forM · registerConnective) split
  rw [← Connective.opcode_of_place place, whole]
  refine ⟨fun handled => ?_, fun unhandled => ?_⟩
  · obtain ⟨entry, found⟩ := isSome_handler?.mp handled
    exact load_of_handled distinct ht free found
  · have unknown := find?_eq_none.mpr unhandled
    obtain ⟨entry, found⟩ | ⟨other, taken⟩ := clashes_def.mp clash
    · rw [unknown] at found
      cases found
    · exact load_of_named distinct ht free unknown taken

/-- It stops half way through `not` where another opcode goes by that name. -/
theorem registerCore_stops_at_clash_taken_name :
    let t := empty.perform [.register ⟨9, 1⟩ Stock.probe.handler none, .name ⟨9, 1⟩ "not"]
    t.Reachable ∧ t.Clashes .not ∧ (∀ d ∈ [Connective.and, .or], ¬ t.Clashes d) ∧
      t.handler? ⟨0, 2⟩ = none ∧
      ∃ u, registerCore.Ends t (.error (.duplicateMnemonic "not")) u ∧
        t.Adds (loadOf [.and, .or] ++ [.register ⟨0, 2⟩ Connective.not.handler (some .unary)]) u ∧
        u.mnemonic? ⟨0, 2⟩ = none := by
  intro t
  have reached : t.Reachable := (Reachable.empty.serve _).serve _
  have added : empty.Adds [.register ⟨9, 1⟩ Stock.probe.handler none, .name ⟨9, 1⟩ "not"] t := by
    have ran := registerWith_of_none (find?_empty ⟨9, 1⟩) .binary Stock.probe.handler
    have handled : ((empty.set ⟨9, 1⟩ ⟨Stock.probe.handler, .binary⟩).handler? ⟨9, 1⟩).isSome := by
      rw [handler?, find?_set, if_pos rfl]
      rfl
    obtain ⟨u, _, named, second⟩ := grant_name handled (by simp [empty]) (by simp [empty])
    have reached : t = u := by
      simp only [t, perform, List.foldl_cons, List.foldl_nil, serve, register, ran]
      exact congrArg Outcome.state named
    rw [reached]
    exact (adds_set (find?_empty _) rfl rfl).cons second
  have taken : t.Clashes .not := clashes_def.mpr
    (.inr ⟨⟨9, 1⟩, (added.byMnemonic _ _).mpr (.inr (by decide))⟩)
  have unhandled (d : Connective) : t.find? d.opcode = none := by
    rw [Option.eq_none_iff_forall_ne_some]
    intro entry found
    rcases (added.entries _ _).mp found with old | new
    · rw [find?_empty] at old
      cases old
    · have foreign : d.opcode = ⟨9, 1⟩ := congrArg Prod.fst (List.mem_singleton.mp new)
      have own := d.opcode_core.1
      rw [foreign] at own
      exact absurd own (by decide)
  have free : ∀ d ∈ [Connective.and, .or], ¬ t.Clashes d := by
    intro d hd
    refine not_clashes.mpr ⟨unhandled d, ?_⟩
    rw [Option.eq_none_iff_forall_ne_some]
    intro opcode used
    rcases (added.byMnemonic _ _).mp used with old | new
    · simp [empty] at old
    · have same : d.mnemonic = Connective.not.mnemonic :=
        congrArg Prod.snd (List.mem_singleton.mp new)
      rw [Connective.mnemonic_inj same] at hd
      exact absurd hd (by decide)
  have unknown : t.handler? ⟨0, 2⟩ = none := find?_eq_none.mp (unhandled .not)
  exact ⟨reached, taken, free, unknown,
    ((registerCore_stops_at_clash reached).2.2.1 2 .not rfl taken free).2 unknown⟩

end Core

end Table

end ByteMachine
