import ByteMachine.Proofs.Instruction.CoreExecution

/-!
# Independent commands commute

Two commands of the core plugin are independent if neither writes a cell that the other reads or
writes. What a command cannot name it does not touch, so an operand that names no cell is
independent of everything.

* `execute_store`: storing a byte in a cell that a command neither reads nor writes changes
  nothing about the command: not its result, and not what it does to the rest.
* `execute_leaves`: a command leaves the machine as it is or with a byte stored in its target.

Executing one command before another is therefore storing a byte that the other one does not
look at. `independent_commands_commute` says this for both orders, refused commands included.
-/

namespace ByteMachine

/-! ## 1. Two stores at different cells -/

theorem Bank.store_comm {b : Bank} {o p : Offset} (ho : b.Contains o) (hp : b.Contains p)
    (apart : o ≠ p) (x y : Byte) : (b.store o x).store p y = (b.store p y).store o x := by
  have places : o.toNatClampNeg ≠ p.toNatClampNeg :=
    fun e => apart (Offset.eq_of_place_eq ho.1 hp.1 e)
  unfold store set
  simp only [Array.setIfInBounds_comm x y places]

theorem Machine.store_comm {m : Machine} {o p : Offset} (ho : m.memory.Contains o)
    (hp : m.memory.Contains p) (apart : o ≠ p) (x y : Byte) :
    (m.store o x).store p y = (m.store p y).store o x := by
  unfold store
  simp only [Bank.store_comm ho hp apart x y]

/-! ## 2. The cells of a command -/

theorem Operand.Denotes.offset_eq {m : Machine} {a : Address} {o : Offset}
    (h : (Operand.address a).Denotes m o) : o = a.offset := by
  cases h
  rfl

namespace Command

variable {m : Machine} {c d : Command} {o p : Offset} {value : Byte}

/-- The first operand names the cell. -/
def Target (m : Machine) (c : Command) (o : Offset) : Prop := c.first.Denotes m o

/-- The second operand names the cell; that of a negation does not matter. -/
def Source (m : Machine) (c : Command) (o : Offset) : Prop :=
  ¬ c.Invokes .not ∧ c.second.Denotes m o

/-- Neither command's target is a cell of the other. -/
structure Independent (m : Machine) (c d : Command) : Prop where
  targets : ∀ o, c.Target m o → ¬ d.Target m o
  left : ∀ o, c.Target m o → ¬ d.Source m o
  right : ∀ o, d.Target m o → ¬ c.Source m o

theorem Independent.symm (h : c.Independent m d) : d.Independent m c where
  targets o hd hc := h.targets o hc hd
  left := h.right
  right := h.left

theorem Invokes.unique {k l : Connective} (hk : c.Invokes k) (hl : c.Invokes l) : k = l :=
  Connective.opcode_inj (hk.opcode_eq.symm.trans hl.opcode_eq)

theorem Selects.target {k : Connective} {dst src : Offset} (h : c.Selects m k dst src) :
    c.Target m dst := by
  cases h with
  | unary _ first => exact first
  | binary _ _ first _ => exact first

theorem Selects.source {k : Connective} {dst src : Offset} (h : c.Selects m k dst src) :
    src = dst ∨ c.Source m src := by
  cases h with
  | unary => exact .inl rfl
  | binary invokes reads _ second =>
    exact .inr ⟨fun negates => reads (invokes.unique negates), second⟩

/-! ## 3. A byte stored elsewhere -/

theorem resolve_store (x : Operand) : x.resolve (m.store p value) = x.resolve m := by
  cases x with
  | immediate byte => rfl
  | address a => simp only [Operand.resolve, Machine.store, Bank.size_store]

theorem denotes_store {x : Operand} (h : x.Denotes m o) : x.Denotes (m.store p value) o := by
  rw [← Operand.resolve_eq_ok_iff, resolve_store]
  exact Operand.resolve_of_denotes h

theorem unresolved_store {x : Operand} {fault : Fault} (h : x.Unresolved m fault) :
    x.Unresolved (m.store p value) fault := by
  rw [← Operand.resolve_eq_error_iff, resolve_store]
  exact Operand.resolve_of_unresolved h

/-- Which cells a command selects does not depend on what the cells hold. -/
theorem Selects.store {k : Connective} {dst src : Offset} (h : c.Selects m k dst src)
    (p : Offset) (value : Byte) : c.Selects (m.store p value) k dst src := by
  cases h with
  | unary invokes first => exact .unary invokes (denotes_store first)
  | binary invokes reads first second =>
    exact .binary invokes reads (denotes_store first) (denotes_store second)

/-- Whether and why a command is refused does not depend on what the cells hold. -/
theorem Refused.store {fault : Fault} (h : c.Refused m fault) (p : Offset) (value : Byte) :
    c.Refused (m.store p value) fault := by
  cases h with
  | unknown other => exact .unknown other
  | first invokes bad => exact .first invokes (unresolved_store bad)
  | second invokes reads good bad =>
    exact .second invokes reads (denotes_store good) (unresolved_store bad)
  | locked selects locked => exact .locked (selects.store p value) locked

/-- **A byte stored elsewhere does not matter to a command**, and stays where it is. -/
theorem execute_store (inside : m.memory.Contains p) (target : ¬ c.Target m p)
    (source : ¬ c.Source m p) (value : Byte) :
    ((Table.core.execute c).run (m.store p value)).result =
      ((Table.core.execute c).run m).result ∧
    ((Table.core.execute c).run (m.store p value)).state =
      ((Table.core.execute c).run m).state.store p value := by
  rcases c.refused_or_selects m with ⟨fault, refused⟩ | ⟨k, dst, src, selects, free⟩
  · obtain ⟨result, state⟩ := refused.execute
    obtain ⟨result', state'⟩ := (refused.store p value).execute
    rw [result, state, result', state']
    exact ⟨rfl, rfl⟩
  · obtain ⟨hd, hs⟩ := selects.contains
    have apart : dst ≠ p := fun e => target (e ▸ selects.target)
    have apart' : src ≠ p := by
      rintro rfl
      exact selects.source.elim (fun e => apart e.symm) source
    have d : (m.store p value).memory.byteAt dst = m.memory.byteAt dst :=
      Bank.byteAt_store_of_ne inside hd apart
    have s : (m.store p value).memory.byteAt src = m.memory.byteAt src :=
      Bank.byteAt_store_of_ne inside hs apart'
    obtain ⟨result, state⟩ := selects.execute_of_free free
    obtain ⟨result', state'⟩ := (selects.store p value).execute_of_free free
    rw [result, state, result', state', d, s]
    exact ⟨rfl, Machine.store_comm inside hd (Ne.symm apart) _ _⟩

/-- A command leaves the machine as it is, or with a byte stored in its target. -/
theorem execute_leaves (m : Machine) (c : Command) :
    ((Table.core.execute c).run m).state = m ∨
    ∃ o value, c.Target m o ∧ ((Table.core.execute c).run m).state = m.store o value := by
  rcases c.refused_or_selects m with ⟨fault, refused⟩ | ⟨k, dst, src, selects, free⟩
  · exact .inl refused.execute.2
  · exact .inr ⟨dst, _, selects.target, (selects.execute_of_free free).2⟩

/-! ## 4. Two orders -/

theorem Independent.result_eq (h : c.Independent m d) :
    ((Table.core.execute d).run ((Table.core.execute c).run m).state).result =
      ((Table.core.execute d).run m).result := by
  rcases execute_leaves m c with same | ⟨o, value, target, stored⟩
  · rw [same]
  · rw [stored]
    exact (execute_store target.contains (h.targets o target) (h.left o target) value).1

theorem Independent.state_eq (h : c.Independent m d) :
    ((Table.core.execute d).run ((Table.core.execute c).run m).state).state =
      ((Table.core.execute c).run ((Table.core.execute d).run m).state).state := by
  rcases execute_leaves m c with same | ⟨o, x, target, stored⟩
  · rcases execute_leaves m d with same' | ⟨p, y, target', stored'⟩
    · rw [same, same', same]
    · have kept := execute_store target'.contains (h.symm.targets p target') (h.right p target') y
      rw [same, stored', kept.2, same]
  · have kept := execute_store target.contains (h.targets o target) (h.left o target) x
    rcases execute_leaves m d with same' | ⟨p, y, target', stored'⟩
    · rw [stored, kept.2, same', stored]
    · have kept' := execute_store target'.contains (h.symm.targets p target') (h.right p target') y
      have apart : p ≠ o := fun e => h.targets o target (e ▸ target')
      rw [stored, kept.2, stored', kept'.2, stored]
      exact Machine.store_comm target'.contains target.contains apart y x

/-- **Independent commands commute**: whichever of them is executed first, the machine at the end
    is the same, and each of them gives the same result, granted or refused. -/
theorem independent_commands_commute (h : c.Independent m d) :
    ((Table.core.execute d).run ((Table.core.execute c).run m).state).state =
      ((Table.core.execute c).run ((Table.core.execute d).run m).state).state ∧
    ((Table.core.execute c).run ((Table.core.execute d).run m).state).result =
      ((Table.core.execute c).run m).result ∧
    ((Table.core.execute d).run ((Table.core.execute c).run m).state).result =
      ((Table.core.execute d).run m).result :=
  ⟨h.state_eq, h.symm.result_eq, h.result_eq⟩

/-- It holds of `imp` and of a `not` whose second operand names the cell that `imp` writes. -/
theorem independent_commands_commute_imp_not :
    let imp : Command := ⟨Connective.imp.opcode, .address ⟨0, 0⟩, .address ⟨0, 2⟩⟩
    let not : Command := ⟨Connective.not.opcode, .address ⟨0, 1⟩, .address ⟨0, 0⟩⟩
    ∃ m, Machine.create { memorySize := 3 } = .ok m ∧ imp.Independent m not ∧
      ((Table.core.execute not).run ((Table.core.execute imp).run m).state).state =
        ((Table.core.execute imp).run ((Table.core.execute not).run m).state).state := by
  intro imp not
  obtain ⟨m, made⟩ : ∃ m, Machine.create { memorySize := 3 } = .ok m := ⟨_, rfl⟩
  have negates : not.Invokes .not := ⟨2, rfl, rfl⟩
  have independent : imp.Independent m not := by
    refine ⟨fun o h h' => ?_, fun o _ h' => h'.1 negates, fun o h h' => ?_⟩
    · exact absurd (h.offset_eq.symm.trans h'.offset_eq) (by decide)
    · exact absurd (h.offset_eq.symm.trans h'.2.offset_eq) (by decide)
  exact ⟨m, made, independent, (independent_commands_commute independent).1⟩

end Command

end ByteMachine
