import ByteMachine.Instruction.Stock
import ByteMachine.Proofs.Instruction.TableGrowth

/-!
# The order in which plugins are loaded does not matter

A load is a list of requests, each of which registers one handler or names one opcode.

* `Table.Loadable`: nothing in the load clashes, neither with the table nor with another request of
  the load, and every opcode has its handler before it is named (`Table.Follows`).
* `Table.Adds`: what a load has added to a table, said by membership in the load and so without
  any regard to its order.
* `Loadable.grant` and `Loadable.rest`: the first request of such a load is granted, and the rest
  is such a load for the table that it leaves. By induction every request is granted
  (`Loadable.granted`) and the whole load is added (`Loadable.adds`).

`load_order_independent`: two orders of one load end in tables that nothing can tell apart.
-/

namespace ByteMachine.Table

/-! ## 1. Loads -/

/-- The opcode and the entry that a request registers. -/
def Request.entry? : Request → Option (Opcode × Entry)
  | .register opcode handler arity => some (opcode, ⟨handler, arity.getD .binary⟩)
  | _ => none

/-- The opcode that a request names, and the name. -/
def Request.label? : Request → Option (Opcode × String)
  | .name opcode mnemonic => some (opcode, mnemonic)
  | _ => none

/-- All entries that a load registers. -/
def registrations (load : List Request) : List (Opcode × Entry) := load.filterMap Request.entry?

/-- All names that a load gives. -/
def labels (load : List Request) : List (Opcode × String) := load.filterMap Request.label?

/-- Whenever the load names an opcode, the table has a handler for it or an earlier request of the
    load has registered one. -/
def Follows (t : Table) (load : List Request) : Prop :=
  ∀ before opcode mnemonic after, load = before ++ .name opcode mnemonic :: after →
    (t.handler? opcode).isSome ∨ ∃ entry, (opcode, entry) ∈ registrations before

/-- The load registers and names one thing at a time, and nothing twice. -/
structure Loadable (t : Table) (load : List Request) : Prop where
  /-- Only single handlers and single names are asked for. -/
  single : .registerCore ∉ load
  /-- No opcode is registered twice. -/
  distinct : ((registrations load).map Prod.fst).Nodup
  /-- No opcode is registered that the table has a handler for. -/
  free : ∀ x ∈ registrations load, t.handler? x.1 = none
  /-- No name is given twice. -/
  unique : ((labels load).map Prod.snd).Nodup
  /-- No name is given that the table uses. -/
  unused : ∀ x ∈ labels load, ∀ opcode, t.opcodeOf x.2 ≠ .ok opcode
  /-- No opcode is named twice. -/
  once : ((labels load).map Prod.fst).Nodup
  /-- No opcode is named that has a name in the table. -/
  unnamed : ∀ x ∈ labels load, t.mnemonic? x.1 = none
  /-- Every opcode has its handler before it is named. -/
  follows : t.Follows load

theorem mem_registrations_append {load more : List Request} {x : Opcode × Entry} :
    x ∈ registrations (load ++ more) ↔ x ∈ registrations load ∨ x ∈ registrations more := by
  unfold registrations
  rw [List.filterMap_append, List.mem_append]

theorem mem_labels_append {load more : List Request} {x : Opcode × String} :
    x ∈ labels (load ++ more) ↔ x ∈ labels load ∨ x ∈ labels more := by
  unfold labels
  rw [List.filterMap_append, List.mem_append]

theorem mem_registrations_cons {r : Request} {load : List Request} {x : Opcode × Entry} :
    x ∈ registrations (r :: load) ↔ x ∈ registrations [r] ∨ x ∈ registrations load := by
  rw [← List.singleton_append, mem_registrations_append]

theorem mem_labels_cons {r : Request} {load : List Request} {x : Opcode × String} :
    x ∈ labels (r :: load) ↔ x ∈ labels [r] ∨ x ∈ labels load := by
  rw [← List.singleton_append, mem_labels_append]

/-- Loading is a matter of what is asked for, as long as handlers come before names. -/
theorem Loadable.perm {t : Table} {load other : List Request} (h : t.Loadable load)
    (perm : load.Perm other) (follows : t.Follows other) : t.Loadable other := by
  have entries : (registrations load).Perm (registrations other) := perm.filterMap _
  have names : (labels load).Perm (labels other) := perm.filterMap _
  exact {
    single := fun asked => h.single (perm.mem_iff.mpr asked)
    distinct := (entries.map _).nodup_iff.mp h.distinct
    free := fun x hx => h.free x (entries.mem_iff.mpr hx)
    unique := (names.map _).nodup_iff.mp h.unique
    unused := fun x hx => h.unused x (names.mem_iff.mpr hx)
    once := (names.map _).nodup_iff.mp h.once
    unnamed := fun x hx => h.unnamed x (names.mem_iff.mpr hx)
    follows }

/-! ## 2. What a load adds -/

/-- The second table knows what the first one knows, what the load gives, and nothing else. -/
structure Adds (t : Table) (load : List Request) (u : Table) : Prop where
  entries : ∀ opcode entry, u.find? opcode = some entry ↔
    t.find? opcode = some entry ∨ (opcode, entry) ∈ registrations load
  byMnemonic : ∀ mnemonic opcode, u.names.opcode? mnemonic = some opcode ↔
    t.names.opcode? mnemonic = some opcode ∨ (opcode, mnemonic) ∈ labels load
  byOpcode : ∀ opcode mnemonic, u.names.mnemonic? opcode = some mnemonic ↔
    t.names.mnemonic? opcode = some mnemonic ∨ (opcode, mnemonic) ∈ labels load

theorem adds_nil (t : Table) : t.Adds [] t := by
  constructor <;> simp [registrations, labels]

/-- One load after another adds what both of them give. -/
theorem Adds.append {t u v : Table} {load more : List Request} (first : t.Adds load u)
    (rest : u.Adds more v) : t.Adds (load ++ more) v where
  entries opcode entry := by
    rw [rest.entries, first.entries, or_assoc, mem_registrations_append]
  byMnemonic mnemonic opcode := by
    rw [rest.byMnemonic, first.byMnemonic, or_assoc, mem_labels_append]
  byOpcode opcode mnemonic := by
    rw [rest.byOpcode, first.byOpcode, or_assoc, mem_labels_append]

theorem Adds.cons {t u v : Table} {r : Request} {load : List Request} (first : t.Adds [r] u)
    (rest : u.Adds load v) : t.Adds (r :: load) v := first.append rest

theorem adds_set {t : Table} {opcode : Opcode} {entry : Entry} {r : Request}
    (free : t.find? opcode = none) (asks : r.entry? = some (opcode, entry))
    (silent : r.label? = none) : t.Adds [r] (t.set opcode entry) where
  entries key old := by
    simp only [registrations, List.filterMap_cons, List.filterMap_nil, asks, List.mem_singleton,
      Prod.mk.injEq, find?_set]
    by_cases e : opcode = key
    · subst e
      simp [free, eq_comm]
    · simp [e, Ne.symm e]
  byMnemonic _ _ := by simp [labels, silent]
  byOpcode _ _ := by simp [labels, silent]

theorem adds_names {t : Table} {opcode : Opcode} {mnemonic : String} {names : Names}
    (h : t.names.insert? mnemonic opcode = some names) :
    t.Adds [.name opcode mnemonic] { t with names } := by
  obtain ⟨⟨freeName, freeOpcode⟩, byName, byOpcode⟩ := Names.insert?_eq_some h
  refine ⟨fun _ _ => ?_, fun key o => ?_, fun o key => ?_⟩
  · simp [registrations, Request.entry?, find?]
  · show names.opcode? key = some o ↔ _
    rw [byName]
    by_cases e : mnemonic = key
    · subst e
      simp [labels, Request.label?, freeName, eq_comm]
    · simp [labels, Request.label?, e, Ne.symm e]
  · show names.mnemonic? o = some key ↔ _
    rw [byOpcode]
    by_cases e : opcode = o
    · subst e
      simp [labels, Request.label?, freeOpcode, eq_comm]
    · simp [labels, Request.label?, e, Ne.symm e]

/-! ## 3. One request of a load -/

section Step

variable {t u : Table} {r : Request} {load : List Request}

theorem find?_eq_none {opcode : Opcode} : t.find? opcode = none ↔ t.handler? opcode = none := by
  simp [handler?]

theorem isSome_handler? {opcode : Opcode} :
    (t.handler? opcode).isSome ↔ ∃ entry, t.find? opcode = some entry := by
  rw [handler?, Option.isSome_map, Option.isSome_iff_exists]

theorem opcode?_eq_none {mnemonic : String} (h : ∀ opcode, t.opcodeOf mnemonic ≠ .ok opcode) :
    t.names.opcode? mnemonic = none := by
  cases found : t.names.opcode? mnemonic with
  | none => rfl
  | some opcode => exact absurd (opcodeOf_eq_ok_iff.mpr found) (h opcode)

/-- A request that registers a free opcode is granted. -/
theorem grant_register {opcode : Opcode} (free : t.find? opcode = none) (handler : Handler)
    (arity : Option Arity) :
    ∃ u log, (serve (.register opcode handler arity)).run t = ⟨.ok (), u, log⟩ ∧
      t.Adds [.register opcode handler arity] u := by
  have added : t.Adds [.register opcode handler arity]
      (t.set opcode ⟨handler, arity.getD .binary⟩) := adds_set free rfl rfl
  cases arity with
  | none => exact ⟨_, _, registerWith_of_none free .binary handler, added⟩
  | some arity => exact ⟨_, _, registerWith_of_none free arity handler, added⟩

/-- A request that gives a free name to an opcode with a handler and no name is granted. -/
theorem grant_name {opcode : Opcode} {mnemonic : String} (handled : (t.handler? opcode).isSome)
    (unused : t.names.opcode? mnemonic = none) (unnamed : t.names.mnemonic? opcode = none) :
    ∃ u log, (serve (.name opcode mnemonic)).run t = ⟨.ok (), u, log⟩ ∧
      t.Adds [.name opcode mnemonic] u := by
  obtain ⟨entry, found⟩ := isSome_handler?.mp handled
  cases free : t.names.insert? mnemonic opcode with
  | none =>
    have taken := Names.insert?_eq_none.mp free
    simp [unused, unnamed] at taken
  | some names => exact ⟨_, _, name_of_free found free, adds_names free⟩

/-- **The first request of a load is granted**, and adds what it asks for. -/
theorem Loadable.grant (h : t.Loadable (r :: load)) :
    ∃ u log, (serve r).run t = ⟨.ok (), u, log⟩ ∧ t.Adds [r] u := by
  cases r with
  | register opcode handler arity =>
    have free := h.free (opcode, ⟨handler, arity.getD .binary⟩) List.mem_cons_self
    exact grant_register (find?_eq_none.mpr free) handler arity
  | name opcode mnemonic =>
    have given : (opcode, mnemonic) ∈ labels (.name opcode mnemonic :: load) := List.mem_cons_self
    have handled := (h.follows [] opcode mnemonic load rfl).resolve_right (by simp [registrations])
    exact grant_name handled (opcode?_eq_none (h.unused _ given)) (h.unnamed _ given)
  | registerCore => exact absurd List.mem_cons_self h.single

/-- In a list without duplicates what stands first does not stand later. -/
theorem apart_of_nodup {α β κ : Type} {f : α → Option β} {key : β → κ} {a : α} {as : List α}
    (h : (((a :: as).filterMap f).map key).Nodup) {x y : β} (hx : f a = some x)
    (hy : y ∈ as.filterMap f) : key x ≠ key y := by
  rw [List.filterMap_cons_some hx, List.map_cons, List.nodup_cons] at h
  intro same
  exact h.1 (same ▸ List.mem_map_of_mem hy)

/-- What the first request registers is then in the table. -/
theorem Follows.rest (h : t.Follows (r :: load)) (added : t.Adds [r] u) : u.Follows load := by
  intro before opcode mnemonic after split
  have known : ∀ entry, t.find? opcode = some entry ∨ (opcode, entry) ∈ registrations [r] →
      (u.handler? opcode).isSome :=
    fun entry found => isSome_handler?.mpr ⟨entry, (added.entries opcode entry).mpr found⟩
  rcases h (r :: before) opcode mnemonic after (by rw [split]; rfl) with old | ⟨entry, new⟩
  · obtain ⟨entry, found⟩ := isSome_handler?.mp old
    exact .inl (known entry (.inl found))
  · rcases mem_registrations_cons.mp new with now | earlier
    · exact .inl (known entry (.inr now))
    · exact .inr ⟨entry, earlier⟩

/-- **The rest is a load for the table that the first request leaves.** -/
theorem Loadable.rest (h : t.Loadable (r :: load)) (added : t.Adds [r] u) : u.Loadable load := by
  have tail : load.Sublist (r :: load) := List.sublist_cons_self r load
  have alone : ∀ {β : Type} {f : Request → Option β} {x : β}, x ∈ [r].filterMap f → f r = some x := by
    intro β f x hx
    simpa using hx
  refine ⟨fun asked => h.single (List.mem_cons_of_mem r asked),
    h.distinct.sublist ((tail.filterMap _).map _), fun x hx => ?_,
    h.unique.sublist ((tail.filterMap _).map _), fun x hx opcode => ?_,
    h.once.sublist ((tail.filterMap _).map _), fun x hx => ?_, h.follows.rest added⟩
  · rw [← find?_eq_none, Option.eq_none_iff_forall_ne_some]
    intro entry found
    rcases (added.entries _ _).mp found with before | now
    · rw [find?_eq_none.mpr (h.free x (mem_registrations_cons.mpr (.inr hx)))] at before
      cases before
    · exact apart_of_nodup h.distinct (alone now) hx rfl
  · rw [Ne, opcodeOf_eq_ok_iff]
    intro found
    rcases (added.byMnemonic _ _).mp found with before | now
    · exact h.unused x (mem_labels_cons.mpr (.inr hx)) opcode (opcodeOf_eq_ok_iff.mpr before)
    · exact apart_of_nodup h.unique (alone now) hx rfl
  · show u.names.mnemonic? x.1 = none
    rw [Option.eq_none_iff_forall_ne_some]
    intro mnemonic found
    rcases (added.byOpcode _ _).mp found with before | now
    · have none := h.unnamed x (mem_labels_cons.mpr (.inr hx))
      rw [show t.mnemonic? x.1 = _ from before] at none
      cases none
    · exact apart_of_nodup h.once (alone now) hx rfl

end Step

/-! ## 4. Whole loads -/

section Whole

variable {t u : Table} {load : List Request}

theorem Loadable.adds (h : t.Loadable load) : t.Adds load (t.perform load) := by
  induction load generalizing t with
  | nil => exact adds_nil t
  | cons r load ih =>
    obtain ⟨u, log, ran, added⟩ := h.grant
    have later := ih (h.rest added)
    rw [show t.perform (r :: load) = u.perform load by simp [perform, ran]]
    exact added.cons later

/-- Every request of a load is granted, in the table that those before it have left. -/
theorem Loadable.granted {before after : List Request} {r : Request}
    (h : t.Loadable (before ++ r :: after)) :
    ((serve r).run (t.perform before)).result = .ok () := by
  induction before generalizing t with
  | nil =>
    obtain ⟨u, log, ran, _⟩ := h.grant
    rw [show t.perform [] = t from rfl, ran]
  | cons x before ih =>
    obtain ⟨u, log, ran, added⟩ := h.grant
    rw [show t.perform (x :: before) = u.perform before by simp [perform, ran]]
    exact ih (h.rest added)

end Whole

/-! ## 5. Tables that nothing can tell apart -/

/-- The two tables give the same answer to every question and run every command in the same way. -/
structure Agrees (t u : Table) : Prop where
  handler : ∀ opcode, t.handler? opcode = u.handler? opcode
  arity : ∀ opcode, t.arity? opcode = u.arity? opcode
  opcodeOf : ∀ mnemonic, t.opcodeOf mnemonic = u.opcodeOf mnemonic
  mnemonic : ∀ opcode, t.mnemonic? opcode = u.mnemonic? opcode
  opcodes : t.opcodes = u.opcodes
  size : t.size = u.size
  dispatch : ∀ opcode first second m,
    (t.dispatch opcode first second).run m = (u.dispatch opcode first second).run m
  execute : ∀ c m, (t.execute c).run m = (u.execute c).run m
  describe : ∀ c, t.describe c = u.describe c

/-- The listing shows which opcodes have handlers, and nothing of how they came in. -/
theorem opcodes_eq {t u : Table} (same : ∀ opcode, t.find? opcode = u.find? opcode) :
    t.opcodes = u.opcodes := by
  refine increasing_eq_of_mem_iff Std.HashMap.nodup_keys Std.HashMap.nodup_keys fun opcode => ?_
  have listed : opcode ∈ t.opcodes ↔ opcode ∈ u.opcodes := by
    rw [mem_opcodes, mem_opcodes, handler?, handler?, same]
  rwa [opcodes, opcodes, mem_increasing, mem_increasing] at listed

theorem agrees_of_views {t u : Table} (entries : ∀ opcode, t.find? opcode = u.find? opcode)
    (byMnemonic : ∀ mnemonic, t.names.opcode? mnemonic = u.names.opcode? mnemonic)
    (byOpcode : ∀ opcode, t.names.mnemonic? opcode = u.names.mnemonic? opcode) : t.Agrees u := by
  have listed := opcodes_eq entries
  have dispatched : ∀ opcode first second,
      t.dispatch opcode first second = u.dispatch opcode first second := fun opcode first second => by
    rw [dispatch, dispatch, entries, mnemonic?, mnemonic?, byOpcode]
  exact {
    handler := fun opcode => by rw [handler?, handler?, entries]
    arity := fun opcode => by rw [arity?, arity?, entries]
    opcodeOf := fun mnemonic => by rw [opcodeOf, opcodeOf, byMnemonic]
    mnemonic := byOpcode
    opcodes := listed
    size := by rw [← length_opcodes, ← length_opcodes, listed]
    dispatch := fun opcode first second m => by rw [dispatched]
    execute := fun c m => by simp only [execute, entries, dispatched]
    describe := fun c => by rw [describe, describe, mnemonic?, mnemonic?, byOpcode] }

theorem Adds.agrees {t u v : Table} {load other : List Request} (first : t.Adds load u)
    (second : t.Adds other v) (perm : load.Perm other) : u.Agrees v := by
  have entries : ∀ x, x ∈ registrations load ↔ x ∈ registrations other :=
    fun x => (perm.filterMap _).mem_iff
  have names : ∀ x, x ∈ labels load ↔ x ∈ labels other := fun x => (perm.filterMap _).mem_iff
  refine agrees_of_views (fun opcode => Option.ext fun entry => ?_)
    (fun mnemonic => Option.ext fun opcode => ?_) (fun opcode => Option.ext fun mnemonic => ?_)
  · rw [first.entries, second.entries, entries]
  · rw [first.byMnemonic, second.byMnemonic, names]
  · rw [first.byOpcode, second.byOpcode, names]

/-- **The order of a load does not matter.** For any table, any load without clashes and any order
    of it in which handlers still come before names, every request is granted both ways, and the
    two tables at the end agree in all they show and in all they run. -/
theorem load_order_independent {t : Table} {load other : List Request} (h : t.Loadable load)
    (perm : load.Perm other) (follows : t.Follows other) :
    (∀ before r after, load = before ++ r :: after →
      ((serve r).run (t.perform before)).result = .ok ()) ∧
    (∀ before r after, other = before ++ r :: after →
      ((serve r).run (t.perform before)).result = .ok ()) ∧
    (t.perform load).Agrees (t.perform other) := by
  have h' := h.perm perm follows
  refine ⟨fun before r after split => ?_, fun before r after split => ?_,
    h.adds.agrees h'.adds perm⟩
  · exact Loadable.granted (split ▸ h)
  · exact Loadable.granted (split ▸ h')

/-- It holds of a load that names one opcode which it registers and one that the table has, in
    another order. -/
theorem load_order_independent_two_names :
    let t := empty.set ⟨9, 1⟩ ⟨Stock.probe.handler, .unary⟩
    let load : List Request := [.register ⟨1, 0⟩ Stock.clear.handler (some .unary),
      .name ⟨1, 0⟩ "clear", .register ⟨1, 1⟩ Stock.copy.handler none, .name ⟨9, 1⟩ "probe"]
    let other : List Request := [.name ⟨9, 1⟩ "probe", .register ⟨1, 1⟩ Stock.copy.handler none,
      .register ⟨1, 0⟩ Stock.clear.handler (some .unary), .name ⟨1, 0⟩ "clear"]
    t.Loadable load ∧ load.Perm other ∧ t.Follows other ∧
      (t.perform load).Agrees (t.perform other) := by
  intro t load other
  have known : (t.handler? ⟨9, 1⟩).isSome := by rw [handler?, find?_set, if_pos rfl]; rfl
  have free (key : Opcode) (other : ⟨9, 1⟩ ≠ key) : t.handler? key = none := by
    rw [handler?, find?_set, if_neg other, find?_empty]
    rfl
  -- A name can stand behind at most three other requests.
  have ordered : t.Follows load := by
    intro before opcode mnemonic after split
    rcases before with _ | ⟨_, _ | ⟨_, _ | ⟨_, _ | ⟨_, before⟩⟩⟩⟩ <;> simp [load] at split
    · obtain ⟨rfl, ⟨rfl, rfl⟩, _⟩ := split
      exact .inr ⟨_, List.mem_cons_self⟩
    · obtain ⟨_, _, _, ⟨rfl, rfl⟩, _⟩ := split
      exact .inl known
  have follows : t.Follows other := by
    intro before opcode mnemonic after split
    rcases before with _ | ⟨_, _ | ⟨_, _ | ⟨_, _ | ⟨_, before⟩⟩⟩⟩ <;> simp [other] at split
    · obtain ⟨⟨rfl, rfl⟩, _⟩ := split
      exact .inl known
    · obtain ⟨rfl, rfl, rfl, ⟨rfl, rfl⟩, _⟩ := split
      exact .inr ⟨_, List.mem_cons_of_mem _ List.mem_cons_self⟩
  have perm : load.Perm other :=
    (List.perm_append_comm : ([_, _, _] ++ [_]).Perm _).trans
      ((List.perm_append_comm : ([_, _] ++ [_]).Perm _).cons _)
  have loadable : t.Loadable load := {
    single := by simp [load]
    distinct := by decide
    free := by
      intro x hx
      simp [load, registrations, Request.entry?] at hx
      rcases hx with rfl | rfl <;> exact free _ (by decide)
    unique := by decide
    unused := by
      intro x _ opcode
      simp [t, opcodeOf, empty]
    once := by decide
    unnamed := by
      intro x _
      simp [t, mnemonic?, empty]
    follows := ordered }
  exact ⟨loadable, perm, follows, (load_order_independent loadable perm follows).2.2⟩

end ByteMachine.Table
