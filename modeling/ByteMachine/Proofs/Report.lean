import ByteMachine.Fault
import ByteMachine.Proofs.Instruction.Rendering

/-!
# Faults are told apart by their reports

A report is a sentence with the details of the fault filled in. Some sentences share their first
words or their last, and a name that is reported may be any text at all, one of the other sentences
included. What tells the kinds apart is how their reports start:

* `openings_prefix_free`: no report starts like one of another kind, so the first words are read
  back from it (`opening_eq_of_message_eq`), and with them the kind of the fault
  (`sameKind_of_opening_eq`);
* `SameKind.eq_of_message_eq`: between faults of one kind the rest of the report decides. A name
  fills all that the fixed words on its two sides leave, so it may repeat these words.

`message_eq_iff` puts these together.
-/

namespace ByteMachine.Fault

open Text

variable {a b : Fault}

/-! ## 1. How a report starts -/

/-- The words a report starts with, as many as tell its kind. The name of a stack comes first in its
    report, so the two stacks have an opening each. -/
def opening : Fault → String
  | .invalidSize _ => "invalid memory"
  | .outOfRange _ _ => "invalid cell"
  | .cellLocked _ => "memory cell"
  | .invalidRegister _ => "invalid register"
  | .instructionPointerMisuse => "the instruction"
  | .stackUnderflow .operands => "operand stack"
  | .stackUnderflow .returns => "return stack"
  | .unknownInstruction _ => "no handler"
  | .duplicateHandler _ => "a handler"
  | .unknownBank _ => "unknown memory"
  | .duplicateBank _ => "memory bank"
  | .notAddressable => "an immediate"
  | .unknownMnemonic _ => "unknown mnemonic"
  | .duplicateMnemonic _ => "mnemonic"

/-- All openings. -/
def openings : List String :=
  ["invalid memory", "invalid cell", "memory cell", "invalid register", "the instruction",
    "operand stack", "return stack", "no handler", "a handler", "unknown memory", "memory bank",
    "an immediate", "unknown mnemonic", "mnemonic"]

theorem opening_mem (a : Fault) : a.opening ∈ openings := by
  fun_cases opening a <;> simp [openings]

/-- No opening is the beginning of another one. -/
theorem openings_prefix_free :
    ∀ u ∈ openings, ∀ v ∈ openings, u.toList <+: v.toList → u = v := by
  decide +kernel

theorem opening_prefix_message (a : Fault) : a.opening.toList <+: a.message.toList := by
  unfold message
  fun_cases opening a <;> simp [StackName.text]

theorem opening_eq_of_message_eq (h : a.message = b.message) : a.opening = b.opening := by
  have ha := a.opening_prefix_message
  have hb := b.opening_prefix_message
  rw [← h] at hb
  rcases List.prefix_or_prefix_of_prefix ha hb with starts | starts
  · exact openings_prefix_free _ a.opening_mem _ b.opening_mem starts
  · exact (openings_prefix_free _ b.opening_mem _ a.opening_mem starts).symm

/-! ## 2. Faults of one kind -/

/-- The two faults have the same cause and may differ in what is reported about it. -/
inductive SameKind : Fault → Fault → Prop where
  | invalidSize (x y : Offset) : SameKind (.invalidSize x) (.invalidSize y)
  | outOfRange (o p x y : Offset) : SameKind (.outOfRange o x) (.outOfRange p y)
  | cellLocked (o p : Offset) : SameKind (.cellLocked o) (.cellLocked p)
  | invalidRegister (i j : UInt8) : SameKind (.invalidRegister i) (.invalidRegister j)
  | instructionPointerMisuse : SameKind .instructionPointerMisuse .instructionPointerMisuse
  | stackUnderflow (x y : StackName) : SameKind (.stackUnderflow x) (.stackUnderflow y)
  | unknownInstruction (x y : Opcode) : SameKind (.unknownInstruction x) (.unknownInstruction y)
  | duplicateHandler (x y : Opcode) : SameKind (.duplicateHandler x) (.duplicateHandler y)
  | unknownBank (x y : BankId) : SameKind (.unknownBank x) (.unknownBank y)
  | duplicateBank (x y : BankId) : SameKind (.duplicateBank x) (.duplicateBank y)
  | notAddressable : SameKind .notAddressable .notAddressable
  | unknownMnemonic (x y : String) : SameKind (.unknownMnemonic x) (.unknownMnemonic y)
  | duplicateMnemonic (x y : String) : SameKind (.duplicateMnemonic x) (.duplicateMnemonic y)

theorem sameKind_of_opening_eq (h : a.opening = b.opening) : SameKind a b := by
  revert h
  -- Each of the two is one of the openings; where they differ, `h` is refuted.
  fun_cases opening a <;> fun_cases opening b <;> intro h <;> simp at h
  all_goals constructor

/-- **Faults of one kind are told apart by the details in their reports.** -/
theorem SameKind.eq_of_message_eq (same : SameKind a b) (h : a.message = b.message) : a = b := by
  unfold message at h
  cases same with
  | invalidSize x y =>
    have size := decimal_inj ((String.append_right_inj _).mp h)
    rw [Int64.toInt_inj.mp size]
  | outOfRange o p x y =>
    simp only [String.append_assoc, String.append_right_inj] at h
    obtain ⟨offset, behind⟩ := decimal_words_inj rfl (by decide) h
    have size := decimal_inj ((String.append_left_inj _).mp behind)
    rw [Int64.toInt_inj.mp offset, Int64.toInt_inj.mp size]
  | cellLocked o p =>
    have offset := decimal_inj (enclosed_inj h)
    rw [Int64.toInt_inj.mp offset]
  | invalidRegister i j =>
    have index := decimal_inj ((String.append_right_inj _).mp h)
    rw [UInt8.toNat_inj.mp (Int.ofNat_inj.mp index)]
  | instructionPointerMisuse => rfl
  | stackUnderflow x y => rw [StackName.text_inj ((String.append_left_inj _).mp h)]
  | unknownInstruction x y => rw [Opcode.text_inj ((String.append_right_inj _).mp h)]
  | duplicateHandler x y => rw [Opcode.text_inj ((String.append_right_inj _).mp h)]
  | unknownBank x y =>
    have bank := decimal_inj ((String.append_right_inj _).mp h)
    rw [Int16.toInt_inj.mp bank]
  | duplicateBank x y =>
    have bank := decimal_inj (enclosed_inj h)
    rw [Int16.toInt_inj.mp bank]
  | notAddressable => rfl
  | unknownMnemonic x y => rw [(String.append_right_inj _).mp h]
  | duplicateMnemonic x y => rw [enclosed_inj h]

/-! ## 3. Reports -/

/-- **A report identifies its fault**, whatever numbers and names it holds. -/
theorem message_eq_iff {a b : Fault} : a.message = b.message ↔ a = b := by
  constructor
  · intro h
    have kind := sameKind_of_opening_eq (opening_eq_of_message_eq h)
    exact kind.eq_of_message_eq h
  · rintro rfl
    rfl

end ByteMachine.Fault
