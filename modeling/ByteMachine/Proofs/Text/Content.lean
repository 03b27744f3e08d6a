import ByteMachine.Proofs.Text.Layout
import Mathlib.Algebra.BigOperators.Group.List.Basic
import Mathlib.Algebra.GroupWithZero.Nat

/-!
# What the lines of a table hold

A line of a table holds the texts of its cells as they are, with a bar between each two and blanks
around each (`Carries`); a rule holds none (`IsRule`).

* `carries_joined`: a line of a row carries the lines of its cells.
* `Grid.length_render`: the heights of the rows say how many lines there are.
* `occurrences` counts the places at which a word stands in a text: in each of the pieces between
  the occurrences of a character that the word does not hold (`occurrences_splitOn`).
* A word that holds no character that tables are drawn with stands in a line as often as in the
  texts that it carries (`occurrences_of_carries`), and in a rule not at all
  (`occurrences_of_isRule`).
-/

namespace ByteMachine.Text

/-! ## 1. Texts between blanks and bars -/

/-- The line is the text with blanks around it. -/
def Padded (text line : Line) : Prop :=
  ∃ before after, line = List.replicate before ' ' ++ text ++ List.replicate after ' '

theorem Padded.widen {text line : Line} (h : Padded text line) (before after : Nat) :
    Padded text (List.replicate before ' ' ++ line ++ List.replicate after ' ') := by
  obtain ⟨front, back, rfl⟩ := h
  refine ⟨before + front, back + after, ?_⟩
  simp only [← List.replicate_append_replicate, List.append_assoc]

theorem padded_fill (align : Align) (width : Nat) (text : Line) :
    Padded text (fill align width text) := by
  cases align with
  | left => exact ⟨0, width - text.length, by simp [fill]⟩
  | right => exact ⟨width - text.length, 0, by simp [fill]⟩

/-- The line of a cell in one place, or an empty one below its end. -/
def Cell.line (c : Cell) (k : Nat) : Line := c.lines[k]?.getD []

theorem Cell.padded_part (c : Cell) (width k : Nat) : Padded (c.line k) (c.part width k) := by
  simpa [part, line] using (padded_fill c.align width (c.line k)).widen 1 1

/-- The line holds some texts in this order, with a bar between each two, each as it is but for
    blanks around it. -/
inductive Carries : List Line → Line → Prop where
  | last {text part : Line} (padded : Padded text part) : Carries [text] part
  | next {text part : Line} {texts : List Line} {line : Line} (padded : Padded text part)
      (rest : Carries texts line) : Carries (text :: texts) (part ++ '│' :: line)

theorem carries_parts (k before width : Nat) (cell : Cell) {widths : List Nat} {cells : List Cell}
    (h : widths.length = cells.length) :
    Carries ((cell :: cells).map (·.line k))
      (List.replicate before ' ' ++ cell.part width k ++
        (List.zipWith (fun width cell => cell.part width k) widths cells).flatMap ('│' :: ·) ++
        [' ']) := by
  induction cells generalizing before width widths cell with
  | nil =>
    rw [List.length_nil, List.length_eq_zero_iff] at h
    subst h
    simpa using Carries.last ((cell.padded_part width k).widen before 1)
  | cons next cells ih =>
    cases widths with
    | nil => cases h
    | cons width' widths =>
      have rest := ih 0 width' next (Nat.succ.inj h)
      simpa using Carries.next ((cell.padded_part width k).widen before 0) rest

/-- **A line of a row carries the lines of its cells.** -/
theorem carries_joined {widths : List Nat} {cells : List Cell} (h : widths.length = cells.length)
    (filled : cells ≠ []) (k : Nat) :
    Carries (cells.map (·.line k))
      (joined '│' (List.zipWith (fun width cell => cell.part width k) widths cells)) := by
  cases cells with
  | nil => exact absurd rfl filled
  | cons cell cells =>
    cases widths with
    | nil => cases h
    | cons width widths => simpa [joined] using carries_parts k 1 width cell (Nat.succ.inj h)

theorem Grid.carries_strip {n : Nat} (widths : Vector Nat (n + 1)) (row : Vector Cell (n + 1))
    (k : Nat) :
    Carries (row.toList.map (·.line k)) (joined '│' (strip widths.toList row.toList k)) :=
  carries_joined (by simp) (List.ne_nil_of_length_pos (by simp)) k

/-! ## 2. Rules -/

/-- The line is drawn across a table. -/
structure IsRule (line : Line) : Prop where
  dash : '─' ∈ line
  plain : ∀ c ∈ line, c ∈ [' ', '─', '┼', '┴']

theorem isRule_rule {mark : Char} (hm : mark ∈ ['┼', '┴']) {widths : List Nat}
    (filled : widths ≠ []) : IsRule (rule mark widths) := by
  constructor
  · cases widths with
    | nil => exact absurd rfl filled
    | cons width widths => simp [rule_cons, List.replicate_succ]
  · intro c there
    refine Decidable.byContradiction fun other => ?_
    simp only [List.mem_cons, List.not_mem_nil, or_false, not_or] at other hm
    obtain ⟨blank, dash, cross, foot⟩ := other
    refine not_mem_joined blank ?_ (fun part hp inside => ?_) there
    · rcases hm with rfl | rfl
      · exact cross
      · exact foot
    · obtain ⟨width, _, rfl⟩ := List.mem_map.mp hp
      exact dash (List.eq_of_mem_replicate inside)

/-! ## 3. How many lines there are -/

theorem Grid.length_render {n : Nat} (g : Grid n) :
    g.render.length =
      height g.titles.toList + 1 + (g.rows.map fun row => height row.toList).sum + 1 := by
  simp only [render, List.length_append, List.length_flatMap, length_rowLines,
    List.length_singleton]

/-! ## 4. How often a word occurs -/

/-- The number of places at which a word stands in a text. -/
def occurrences (word : Line) : Line → Nat
  | [] => 0
  | c :: cs => (if word <+: c :: cs then 1 else 0) + occurrences word cs

theorem isPrefix_append_cons_iff {word xs ys : Line} {c : Char} (h : c ∉ word) :
    word <+: xs ++ c :: ys ↔ word <+: xs := by
  constructor
  · intro front
    have cut : xs ++ [c] <+: xs ++ c :: ys := ⟨ys, by simp⟩
    rcases List.prefix_or_prefix_of_prefix front cut with short | long
    · rcases List.prefix_concat_iff.mp short with whole | inside
      · exact absurd (whole ▸ List.mem_concat_self) h
      · exact inside
    · exact absurd (long.subset List.mem_concat_self) h
  · intro front
    exact front.trans (List.prefix_append _ _)

/-- A word does not occur where one of its characters is missing. -/
theorem occurrences_of_not_mem {word : Line} {c : Char} (h : c ∈ word) {text : Line}
    (missing : c ∉ text) : occurrences word text = 0 := by
  induction text with
  | nil => rfl
  | cons x text ih =>
    have start : ¬ word <+: x :: text := fun front => missing (front.subset h)
    rw [occurrences, if_neg start, ih fun there => missing (List.mem_cons_of_mem x there)]

section Occurrences

variable {word : Line} (filled : word ≠ [])

include filled

/-- A word without some character stands before it or behind it. -/
theorem occurrences_append_cons {c : Char} (h : c ∉ word) (xs ys : Line) :
    occurrences word (xs ++ c :: ys) = occurrences word xs + occurrences word ys := by
  induction xs with
  | nil =>
    have start : ¬ word <+: [] ++ c :: ys := by
      rw [isPrefix_append_cons_iff h, List.prefix_nil]
      exact filled
    rw [List.nil_append] at start ⊢
    simp only [occurrences, if_neg start]
  | cons x xs ih =>
    have same : word <+: x :: xs ++ c :: ys ↔ word <+: x :: xs := isPrefix_append_cons_iff h
    rw [List.cons_append] at same ⊢
    simp only [occurrences, ih, same, Nat.add_assoc]

/-- A word without some character stands in the pieces between its occurrences. -/
theorem occurrences_splitOn {c : Char} (h : c ∉ word) (text : Line) :
    occurrences word text = ((text.splitOn c).map (occurrences word)).sum := by
  have pieces : ∀ pieces : List Line,
      occurrences word ([c].intercalate pieces) = (pieces.map (occurrences word)).sum := by
    intro pieces
    induction pieces with
    | nil => rfl
    | cons piece pieces ih =>
      cases pieces with
      | nil => simp [List.intercalate]
      | cons next pieces =>
        have split : [c].intercalate (piece :: next :: pieces) =
            piece ++ c :: [c].intercalate (next :: pieces) := by
          simp [List.intercalate]
        rw [split, occurrences_append_cons filled h, ih]
        rfl
  rw [← pieces, List.intercalate_splitOn]

variable (undrawn : ∀ c ∈ word, c ∉ Grid.frame)

include undrawn

/-- A word that tables are not drawn with does not stand in what they are drawn with. -/
theorem occurrences_of_drawn {line : Line} (h : ∀ c ∈ line, c ∈ Grid.frame) :
    occurrences word line = 0 := by
  obtain ⟨c, cs, rfl⟩ := List.exists_cons_of_ne_nil filled
  refine occurrences_of_not_mem List.mem_cons_self fun there => ?_
  exact undrawn c List.mem_cons_self (h c there)

theorem occurrences_of_isRule {line : Line} (h : IsRule line) : occurrences word line = 0 := by
  have drawn : [' ', '─', '┼', '┴'] ⊆ Grid.frame := by simp [Grid.frame]
  exact occurrences_of_drawn filled undrawn fun c there => drawn (h.plain c there)

theorem occurrences_of_padded {text line : Line} (h : Padded text line) :
    occurrences word line = occurrences word text := by
  have blank : ' ' ∉ word := fun there => undrawn ' ' there (by decide)
  have blanks : ∀ n, occurrences word (List.replicate n ' ') = 0 :=
    fun n => occurrences_of_drawn filled undrawn fun c there => by
      rw [List.eq_of_mem_replicate there]
      decide
  have behind : ∀ n, occurrences word (text ++ List.replicate n ' ') = occurrences word text := by
    intro n
    cases n with
    | zero => simp
    | succ n => rw [List.replicate_succ, occurrences_append_cons filled blank, blanks, Nat.add_zero]
  obtain ⟨before, after, rfl⟩ := h
  cases before with
  | zero => simpa using behind after
  | succ before =>
    rw [List.replicate_succ', List.append_assoc, List.append_assoc, List.singleton_append,
      occurrences_append_cons filled blank, blanks, behind, Nat.zero_add]

/-- **A word that tables are not drawn with stands in a line as often as in the texts that the line
    carries.** -/
theorem occurrences_of_carries {texts : List Line} {line : Line} (h : Carries texts line) :
    occurrences word line = (texts.map (occurrences word)).sum := by
  induction h with
  | last padded => simp [occurrences_of_padded filled undrawn padded]
  | next padded _ ih =>
    have bar : '│' ∉ word := fun there => undrawn '│' there (by decide)
    rw [occurrences_append_cons filled bar, occurrences_of_padded filled undrawn padded, ih,
      List.map_cons, List.sum_cons]

end Occurrences

end ByteMachine.Text
