/-!
# Tables as text

A grid has a row of titles and any number of rows below it, each with the same number of cells. A
cell is a block of lines, so a cell can hold another grid.

Each column is as wide as the longest line in it, and each row as high as its tallest cell, one
line at least. A cell's lines are filled up with blanks to the column's width, at the end or, in
a right-aligned cell, at the front; a cell that is too short goes on with blank lines. A blank
stands on both sides of every cell and at both ends of every line, and `│` between columns. A
rule of `─` follows the titles, crossed by `┼` between columns, and another ends the grid, met
by `┴`.

This layout is an assumption. Tables are laid out by a table printer that is no part of the machine;
the machine only says which marks and how many blanks to use and on which side a cell stands. What
is said above is how that printer is taken to do it, and everything that is proved about the
picture of a machine rests on it.

All lines of a grid have the same length (`Grid.length_of_mem_render`).
-/

namespace ByteMachine.Text

/-- The characters of one line. -/
abbrev Line := List Char

/-- On which side of a column a cell's lines stand. -/
inductive Align where
  | left
  | right
  deriving DecidableEq, Repr

/-- The line filled up with blanks to a width. -/
def fill (align : Align) (width : Nat) (line : Line) : Line :=
  let blanks := List.replicate (width - line.length) ' '
  match align with
  | .left => line ++ blanks
  | .right => blanks ++ line

/-- The greatest number of a list, or zero. -/
def greatest (ns : List Nat) : Nat := ns.foldr max 0

/-! ## 1. Cells -/

/-- A block of lines and the side of the column on which they stand. -/
structure Cell where
  /-- The side on which the lines stand. -/
  align : Align
  /-- The lines from top to bottom. -/
  lines : List Line
  deriving DecidableEq, Repr

namespace Cell

/-- A cell of one line. -/
def ofText (align : Align) (text : String) : Cell := ⟨align, [text.toList]⟩

/-- The length of the longest line. -/
def width (c : Cell) : Nat := greatest (c.lines.map List.length)

/-- The cell's part of a row's line: its own line in that place, or a blank one. -/
def part (c : Cell) (width line : Nat) : Line :=
  ' ' :: fill c.align width (c.lines[line]?.getD []) ++ [' ']

end Cell

/-! ## 2. Rows and rules -/

/-- A line from the parts of its columns, with a mark between each two. -/
def joined (mark : Char) : List Line → Line
  | [] => [' ', ' ']
  | part :: parts => ' ' :: part ++ parts.flatMap (mark :: ·) ++ [' ']

/-- The number of lines of a row. -/
def height (cells : List Cell) : Nat := max 1 (greatest (cells.map (·.lines.length)))

/-- The lines of a row. -/
def rowLines (widths : List Nat) (cells : List Cell) : List Line :=
  (List.range (height cells)).map fun line =>
    joined '│' (List.zipWith (fun width cell => cell.part width line) widths cells)

theorem length_rowLines (widths : List Nat) (cells : List Cell) :
    (rowLines widths cells).length = height cells := by
  simp [rowLines]

/-- A rule across all columns. -/
def rule (mark : Char) (widths : List Nat) : Line :=
  joined mark (widths.map fun width => List.replicate (width + 2) '─')

/-! ## 3. Grids -/

/-- A table of `n` columns. -/
structure Grid (n : Nat) where
  /-- The titles of the columns. -/
  titles : Vector Cell n
  /-- The rows below the titles. -/
  rows : List (Vector Cell n)

namespace Grid

variable {n : Nat}

/-- The widths of the columns: that of the widest cell, the title included. -/
def widths (g : Grid n) : Vector Nat n :=
  g.rows.foldl (fun widths row => widths.zipWith max (row.map Cell.width))
    (g.titles.map Cell.width)

/-- The lines of the whole table. -/
def render (g : Grid n) : List Line :=
  let widths := g.widths.toList
  rowLines widths g.titles.toList ++ [rule '┼' widths] ++
    g.rows.flatMap (fun row => rowLines widths row.toList) ++ [rule '┴' widths]

end Grid

/-- The text of some lines, each ended by a line break. -/
def unlines (lines : List Line) : String := String.ofList (lines.flatMap (· ++ ['\n']))

/-! ## 4. All lines of a grid have the same length -/

theorem le_greatest {n : Nat} {ns : List Nat} (h : n ∈ ns) : n ≤ greatest ns := by
  induction ns with
  | nil => cases h
  | cons m ns ih =>
    rcases List.mem_cons.mp h with rfl | h
    · exact Nat.le_max_left _ _
    · exact Nat.le_trans (ih h) (Nat.le_max_right _ _)

theorem length_fill {align : Align} {width : Nat} {line : Line} (h : line.length ≤ width) :
    (fill align width line).length = width := by
  cases align <;> simp [fill] <;> omega

/-- A cell that fits its column takes up the column's width and two blanks. -/
theorem Cell.length_part {c : Cell} {width : Nat} (h : c.width ≤ width) (line : Nat) :
    (c.part width line).length = width + 2 := by
  have short : (c.lines[line]?.getD []).length ≤ width := by
    cases hl : c.lines[line]? with
    | none => simp
    | some l =>
      exact Nat.le_trans (le_greatest (List.mem_map_of_mem (List.mem_of_getElem? hl))) h
  simp [part, length_fill short]

/-- The length of a line depends only on the lengths of its parts. -/
theorem length_joined {mark mark' : Char} {parts parts' : List Line}
    (h : parts.map List.length = parts'.map List.length) :
    (joined mark parts).length = (joined mark' parts').length := by
  cases parts with
  | nil =>
    cases parts' with
    | nil => rfl
    | cons => simp at h
  | cons part parts =>
    cases parts' with
    | nil => simp at h
    | cons part' parts' =>
      simp only [List.map_cons, List.cons.injEq] at h
      have added : ∀ (c : Char) (ps : List Line),
          (ps.flatMap (c :: ·)).length = ((ps.map List.length).map (· + 1)).sum := by
        intro c ps
        simp [List.length_flatMap, Function.comp_def]
      simp [joined, added, h.1, h.2]

namespace Grid

variable {n : Nat}

/-- The length of the lines of a table. -/
def lineLength (g : Grid n) : Nat := (rule '┴' g.widths.toList).length

theorem le_foldl_widths (rows : List (Vector Cell n)) (start : Vector Nat n) {i : Nat} (hi : i < n) :
    start[i] ≤ (rows.foldl (fun widths row => widths.zipWith max (row.map Cell.width)) start)[i] ∧
      ∀ row ∈ rows, row[i].width ≤
        (rows.foldl (fun widths row => widths.zipWith max (row.map Cell.width)) start)[i] := by
  induction rows generalizing start with
  | nil => simp
  | cons row rows ih =>
    obtain ⟨low, high⟩ := ih (start.zipWith max (row.map Cell.width))
    simp only [Vector.getElem_zipWith, Vector.getElem_map] at low
    refine ⟨Nat.le_trans (Nat.le_max_left _ _) low, fun r hr => ?_⟩
    rcases List.mem_cons.mp hr with rfl | hr
    · exact Nat.le_trans (Nat.le_max_right _ _) low
    · exact high r hr

/-- Every cell fits its column. -/
theorem width_le_widths (g : Grid n) {row : Vector Cell n} (h : row = g.titles ∨ row ∈ g.rows)
    {i : Nat} (hi : i < n) : row[i].width ≤ g.widths[i] := by
  obtain ⟨low, high⟩ := le_foldl_widths g.rows (g.titles.map Cell.width) hi
  rcases h with rfl | h
  · simpa [widths] using low
  · exact high row h

theorem length_of_mem_rowLines (g : Grid n) {row : Vector Cell n}
    (h : row = g.titles ∨ row ∈ g.rows) {line : Line}
    (hl : line ∈ rowLines g.widths.toList row.toList) : line.length = g.lineLength := by
  obtain ⟨k, _, rfl⟩ := List.mem_map.mp hl
  refine length_joined (List.ext_getElem (by simp) fun i h₁ h₂ => ?_)
  have hi : i < n := by simpa using h₁
  simp [Cell.length_part (g.width_le_widths h hi) k]

theorem length_rule (g : Grid n) (mark : Char) :
    (rule mark g.widths.toList).length = g.lineLength :=
  length_joined rfl

/-- **All lines of a table have the same length.** -/
theorem length_of_mem_render (g : Grid n) {line : Line} (h : line ∈ g.render) :
    line.length = g.lineLength := by
  simp only [render, List.mem_append, List.mem_singleton, List.mem_flatMap] at h
  rcases h with ((h | rfl) | ⟨row, hr, h⟩) | rfl
  · exact g.length_of_mem_rowLines (.inl rfl) h
  · exact g.length_rule _
  · exact g.length_of_mem_rowLines (.inr hr) h
  · exact g.length_rule _

end Grid

end ByteMachine.Text
