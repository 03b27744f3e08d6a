import ByteMachine.Proofs.Machine.Picture
import ByteMachine.Proofs.Text.Content

/-!
# The picture of a machine is rectangular

Below its first line, the picture is one table with one row, whose cells are tables themselves. All
lines of a table have the same length, whatever is in its cells (`Grid.length_of_mem_render`), so
it remains to count them: a table of items has a line for each item and three more
(`length_itemGrid`), and the outer table has as many as the highest of the inner ones and three
more (`length_sideBySide`).
-/

namespace ByteMachine.Machine

open Text

/-! ## 1. The lines of the text -/

/-- **The lines of the picture are the header and the lines of the table below it**, and each is
    ended by a line break. -/
theorem splitOn_picture (m : Machine) :
    m.picture.toList.splitOn '\n' = m.header.toList :: (m.grid.render ++ [[]]) := by
  rw [picture_eq_unlines, splitOn_unlines, List.cons_append]
  intro line there
  rcases List.mem_cons.mp there with rfl | there
  · exact m.newline_not_mem_header
  · exact m.newline_not_mem_grid there

/-! ## 2. How many lines there are -/

/-- A table of items has a title, two rules, and a line for each item. -/
theorem length_itemGrid (title : String) (items : List Item) :
    (itemGrid title items).render.length = 3 + items.length := by
  have low : ∀ row ∈ (itemGrid title items).rows, height row.toList = 1 := by
    intro row hr
    obtain ⟨item, _, rfl⟩ := List.mem_map.mp hr
    rfl
  have titles : height (itemGrid title items).titles.toList = 1 := rfl
  rw [Grid.length_render, titles, List.map_congr_left low]
  simp only [itemGrid, List.map_const', List.length_map, List.sum_replicate_nat]
  omega

/-- Tables side by side are as high as the highest of them, with a title and two rules around. -/
theorem length_sideBySide (a b c d : List Item) :
    (sideBySide a b c d).render.length =
      3 + max (max (3 + a.length) (3 + b.length)) (max (3 + c.length) (3 + d.length)) := by
  have titles : height (sideBySide a b c d).titles.toList = 1 := rfl
  rw [Grid.length_render, titles]
  simp only [sideBySide, List.map_cons, List.map_nil, height, List.sum_cons, List.sum_nil, greatest,
    List.foldr_cons, List.foldr_nil, Vector.toList_mk, length_itemGrid]
  omega

theorem length_registerItems (m : Machine) : m.registerItems.length = 27 := by
  simp only [registerItems, RegisterFile.contents, List.length_map, List.length_zip,
    Vector.length_toList, Nat.min_self]
  rfl

theorem length_stackItems {α : Type} (text : α → String) (xs : List α) :
    (stackItems (xs.reverse.map text)).length = xs.length := by
  simp [stackItems]

/-! ## 3. The whole picture -/

/-- **The picture is rectangular**: the lines below the first one have the same length and are each
    ended by a line break, and the highest of the four tables says how many there are. -/
theorem picture_rectangular (m : Machine) :
    ∃ lines : List Line,
      m.picture.toList.splitOn '\n' = m.header.toList :: (lines ++ [[]]) ∧
      m.picture.toList.getLast? = some '\n' ∧
      (∃ width, ∀ line ∈ lines, line.length = width) ∧
      lines.length = 3 + max (max (3 + min m.memory.cells.size 32) (3 + 27))
        (max (3 + m.stack.operands.length) (3 + m.stack.returns.length)) := by
  refine ⟨m.grid.render, m.splitOn_picture, ?_, ⟨m.grid.lineLength, fun line there =>
    m.grid.length_of_mem_render there⟩, ?_⟩
  · rw [picture_eq_unlines]
    exact getLast?_unlines (List.cons_ne_nil _ _)
  · rw [grid, length_sideBySide, length_memoryItems, length_registerItems, operandItems,
      length_stackItems, returnItems, length_stackItems, shownCells, Nat.min_comm]

end ByteMachine.Machine
