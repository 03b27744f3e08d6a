import ByteMachine.Proofs.Instruction.TableGrowth
import ByteMachine.Proofs.Text.Reading

/-!
# Commands are read back from their texts

The text of a command is a label and, in brackets, its two operands. The label is the opcode in
numbers or, in the descriptions of a table, the name of the opcode, which may be any text at all:
it may hold brackets, commas and digits. So the label is not read from the front. What helps is
that no operand holds an opening bracket: the operands start at the last one.

* `Operand.text_append_inj`: an operand, up to a character that cannot belong to it.
* `Command.label_append_inj`: a label and the operands behind it.
* `Table.label_eq_iff`: two opcodes of a table have the same label if they are the same, or if one
  has no name and the other one's name spells its numbers (`Table.Mimics`), and in no other case,
  because names and named opcodes stand for each other.

`rendering_unambiguous` puts these together.
-/

namespace ByteMachine

open Text

/-! ## 1. Operands and opcodes -/

namespace Operand

theorem toList_text_immediate (value : Byte) :
    (immediate value).text.toList = '#' :: decimalChars value.toNat := by
  simp [text, decimalChars]

theorem toList_text_address (target : Address) :
    (address target).text.toList =
      decimalChars target.bank.toInt ++ ':' :: decimalChars target.offset.toInt := by
  simp [text, Address.text]

/-- An immediate is not written like an address, whatever follows. -/
theorem text_immediate_ne_address {value : Byte} {target : Address} {r s : List Char} :
    (immediate value).text.toList ++ r ≠ (address target).text.toList ++ s := by
  intro h
  rw [toList_text_immediate, toList_text_address, List.append_assoc, List.cons_append,
    List.cons_append] at h
  have start : [] ++ '#' :: (decimalChars value.toNat ++ r) =
      decimalChars target.bank.toInt ++ ':' :: (decimalChars target.offset.toInt ++ s) := h
  obtain ⟨_, mark, _⟩ := append_cons_inj (fun _ none => nomatch none) (fun _ => mem_decimalChars)
    (by decide) (by decide) start
  exact absurd mark (by decide)

/-- **An operand is read back up to a character that cannot belong to it.** -/
theorem text_append_inj {x y : Operand} {r s : List Char} {c d : Char}
    (hc : ¬ (c.isDigit ∨ c = '-')) (hd : ¬ (d.isDigit ∨ d = '-'))
    (h : x.text.toList ++ c :: r = y.text.toList ++ d :: s) : x = y ∧ c = d ∧ r = s := by
  cases x with
  | immediate a =>
    cases y with
    | immediate b =>
      rw [toList_text_immediate, toList_text_immediate, List.cons_append, List.cons_append] at h
      obtain ⟨value, rest⟩ := decimal_append_inj hc hd (List.cons.inj h).2
      have same : a = b := UInt8.toNat_inj.mp (Int.ofNat_inj.mp value)
      exact ⟨congrArg immediate same, rest⟩
    | address b => exact absurd h text_immediate_ne_address
  | address a =>
    cases y with
    | immediate b => exact absurd h.symm text_immediate_ne_address
    | address b =>
      rw [toList_text_address, toList_text_address, List.append_assoc, List.append_assoc,
        List.cons_append, List.cons_append] at h
      obtain ⟨bank, _, behind⟩ := decimal_append_inj (by decide) (by decide) h
      obtain ⟨offset, rest⟩ := decimal_append_inj hc hd behind
      obtain ⟨bank₁, offset₁⟩ := a
      obtain ⟨bank₂, offset₂⟩ := b
      cases Int16.toInt_inj.mp bank
      cases Int64.toInt_inj.mp offset
      exact ⟨rfl, rest⟩

theorem bracket_not_mem_text (x : Operand) : '(' ∉ x.text.toList := by
  cases x with
  | immediate value => simp [toList_text_immediate, bracket_not_mem_decimal]
  | address target => simp [toList_text_address, bracket_not_mem_decimal]

end Operand

/-- The numbers of an opcode are read back from its text. -/
theorem Opcode.text_inj {a b : Opcode} (h : a.text = b.text) : a = b := by
  have chars := congrArg String.toList h
  simp only [text, String.toList_append, toList_decimal, List.append_assoc] at chars
  obtain ⟨plugin, _, behind⟩ := decimal_append_inj (by decide) (by decide) chars
  obtain ⟨plugin₁, command₁⟩ := a
  obtain ⟨plugin₂, command₂⟩ := b
  cases Int32.toInt_inj.mp plugin
  cases Int32.toInt_inj.mp (decimalChars_inj behind)
  rfl

/-! ## 2. Commands -/

namespace Command

theorem toList_operands (c : Command) :
    c.operands.toList =
      '(' :: (c.first.text.toList ++ ',' :: ' ' :: (c.second.text.toList ++ [')'])) := by
  simp [operands]

/-- **The operands are read back from behind any label, and so is the label.** -/
theorem label_append_inj {c d : Command} {label label' : String}
    (h : label ++ c.operands = label' ++ d.operands) :
    label = label' ∧ c.first = d.first ∧ c.second = d.second := by
  have chars := congrArg String.toList h
  rw [String.toList_append, String.toList_append, toList_operands, toList_operands] at chars
  have plain : ∀ k : Command,
      '(' ∉ k.first.text.toList ++ ',' :: ' ' :: (k.second.text.toList ++ [')']) := by
    intro k
    simp [k.first.bracket_not_mem_text, k.second.bracket_not_mem_text]
  obtain ⟨labels, inside⟩ := append_cons_inj_last (plain c) (plain d) chars
  obtain ⟨first, _, behind⟩ := Operand.text_append_inj (by decide) (by decide) inside
  obtain ⟨second, _⟩ :=
    Operand.text_append_inj (by decide) (by decide) (List.cons.inj behind).2
  exact ⟨String.toList_inj.mp labels, first, second⟩

end Command

/-! ## 3. Descriptions -/

namespace Table

variable {t : Table}

/-- How a table refers to an opcode: by its name or, if it has none, by its numbers. -/
def label (t : Table) (opcode : Opcode) : String := (t.mnemonic? opcode).getD opcode.text

theorem describe_eq (t : Table) (c : Command) :
    t.describe c = t.label c.opcode ++ c.operands := by
  unfold describe label
  cases t.mnemonic? c.opcode <;> rfl

/-- The first opcode is named exactly as the second one, which has no name, is written. -/
def Mimics (t : Table) (a b : Opcode) : Prop :=
  t.mnemonic? a = some b.text ∧ t.mnemonic? b = none

theorem label_of_some {opcode : Opcode} {mnemonic : String}
    (h : t.mnemonic? opcode = some mnemonic) : t.label opcode = mnemonic := by
  rw [label, h]
  rfl

theorem label_of_none {opcode : Opcode} (h : t.mnemonic? opcode = none) :
    t.label opcode = opcode.text := by
  rw [label, h]
  rfl

theorem Mimics.label_eq {a b : Opcode} (h : t.Mimics a b) : t.label a = t.label b := by
  rw [label_of_some h.1, label_of_none h.2]

/-- A name belongs to one opcode. -/
theorem Consistent.opcode_unique (h : t.Consistent) {a b : Opcode} {mnemonic : String}
    (ha : t.mnemonic? a = some mnemonic) (hb : t.mnemonic? b = some mnemonic) : a = b := by
  have found := (h.agree mnemonic a).mpr ha
  rw [(h.agree mnemonic b).mpr hb] at found
  exact (Option.some.inj found).symm

/-- **Opcodes share a label only if one of them mimics the other.** -/
theorem label_eq_iff (h : t.Consistent) {a b : Opcode} :
    t.label a = t.label b ↔ a = b ∨ t.Mimics a b ∨ t.Mimics b a := by
  constructor
  · intro same
    cases ha : t.mnemonic? a with
    | some mnemonic =>
      rw [label_of_some ha] at same
      cases hb : t.mnemonic? b with
      | some other =>
        rw [label_of_some hb] at same
        exact .inl (h.opcode_unique ha (same ▸ hb))
      | none =>
        rw [label_of_none hb] at same
        exact .inr (.inl ⟨same ▸ ha, hb⟩)
    | none =>
      rw [label_of_none ha] at same
      cases hb : t.mnemonic? b with
      | some other =>
        rw [label_of_some hb] at same
        exact .inr (.inr ⟨same ▸ hb, ha⟩)
      | none =>
        rw [label_of_none hb] at same
        exact .inl (Opcode.text_inj same)
  · rintro (rfl | mimics | mimics)
    · rfl
    · exact mimics.label_eq
    · exact mimics.label_eq.symm

end Table

/-! ## 4. The whole rendering -/

/-- **Commands are told apart by their texts.** The text in numbers determines the command. The
    description by a table determines it up to one ambiguity: a name may spell the numbers of an
    opcode that has no name. -/
theorem rendering_unambiguous {t : Table} (h : t.Reachable) :
    (∀ c d : Command, c.text = d.text → c = d) ∧
    ∀ c d : Command, t.describe c = t.describe d ↔
      c = d ∨ (c.first = d.first ∧ c.second = d.second) ∧
        (t.Mimics c.opcode d.opcode ∨ t.Mimics d.opcode c.opcode) := by
  have parts : ∀ c d : Command, c.opcode = d.opcode → c.first = d.first → c.second = d.second →
      c = d := by
    rintro ⟨_, _, _⟩ ⟨_, _, _⟩ rfl rfl rfl
    rfl
  refine ⟨fun c d same => ?_, fun c d => ⟨fun same => ?_, ?_⟩⟩
  · obtain ⟨label, first, second⟩ := Command.label_append_inj same
    exact parts c d (Opcode.text_inj label) first second
  · rw [Table.describe_eq, Table.describe_eq] at same
    obtain ⟨label, first, second⟩ := Command.label_append_inj same
    rcases (Table.label_eq_iff h.consistent).mp label with opcode | mimics
    · exact .inl (parts c d opcode first second)
    · exact .inr ⟨⟨first, second⟩, mimics⟩
  · rintro (rfl | ⟨⟨first, second⟩, mimics⟩)
    · rfl
    · have label := (Table.label_eq_iff h.consistent).mpr (.inr mimics)
      rw [Table.describe_eq, Table.describe_eq, label, Command.operands, Command.operands, first,
        second]

/-- It holds where the ambiguity occurs: here `1.0` is named `2.5`, and `2.5` has no name. -/
theorem rendering_unambiguous_named_by_numbers :
    let t := Table.empty.perform
      [.register ⟨1, 0⟩ Connective.and.handler none, .name ⟨1, 0⟩ "2.5"]
    t.Reachable ∧ t.Mimics ⟨1, 0⟩ ⟨2, 5⟩ ∧
      ∀ x y, t.describe ⟨⟨1, 0⟩, x, y⟩ = t.describe ⟨⟨2, 5⟩, x, y⟩ := by
  intro t
  have reached : t.Reachable := (Table.Reachable.empty.serve _).serve _
  have handled : (Table.empty.set ⟨1, 0⟩ ⟨Connective.and.handler, .binary⟩).find? ⟨1, 0⟩ =
      some ⟨Connective.and.handler, .binary⟩ := by
    rw [Table.find?_set, if_pos rfl]
  obtain ⟨names, entered⟩ : ∃ names, Names.empty.insert? "2.5" ⟨1, 0⟩ = some names := ⟨_, rfl⟩
  have made : t.names = names := by
    have first := Table.registerWith_of_none (Table.find?_empty ⟨1, 0⟩) .binary
      Connective.and.handler
    have second := Table.name_of_free handled entered
    simp only [t, Table.perform, List.foldl_cons, List.foldl_nil, Table.serve, Table.register,
      first, second]
  obtain ⟨_, _, named⟩ := Names.insert?_eq_some entered
  have mimics : t.Mimics ⟨1, 0⟩ ⟨2, 5⟩ := by
    constructor
    · rw [Table.mnemonic?, made, named]
      decide
    · rw [Table.mnemonic?, made, named]
      decide
  exact ⟨reached, mimics, fun x y =>
    ((rendering_unambiguous reached).2 _ _).mpr (.inr ⟨⟨rfl, rfl⟩, .inl mimics⟩)⟩

end ByteMachine
