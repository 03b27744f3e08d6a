import ByteMachine.Proofs.Text.Reading

/-!
# Reading tables back

The lines of a table determine its columns' widths and what stands between the rules, cell part by
cell part; and they do so also if blanks follow them, as they do in a cell of another table.

* `joined_inj`: the parts of a line, if their lengths are known.
* `rule_append_inj`: the widths that a rule was drawn for, whatever follows the rule.
* `Grid.strips_of_render_eq`: tables under the same titles with the same lines have columns of the
  same widths and the same parts in them.
* `Grid.render_eq_of_fill_eq`: a table is told apart from another one under the same titles by its
  lines filled up with blanks; so tables side by side in one row of a table can be read back
  (`Grid.render_eq_of_cell_eq`).
* `Grid.not_mem_render`: a character that is in no cell, and is not one that tables are drawn
  with, is in no line.
-/

namespace ByteMachine.Text

/-! ## 1. The parts of a line -/

theorem flatMap_cons_inj {mark : Char} {parts parts' : List Line} {r s : Line}
    (lengths : parts.map List.length = parts'.map List.length)
    (h : parts.flatMap (mark :: ·) ++ r = parts'.flatMap (mark :: ·) ++ s) : parts = parts' := by
  induction parts generalizing parts' with
  | nil =>
    cases parts' with
    | nil => rfl
    | cons => simp at lengths
  | cons part parts ih =>
    cases parts' with
    | nil => simp at lengths
    | cons part' parts' =>
      simp only [List.map_cons, List.cons.injEq] at lengths
      simp only [List.flatMap_cons, List.cons_append, List.append_assoc, List.cons.injEq,
        true_and] at h
      obtain ⟨first, rest⟩ := List.append_inj h lengths.1
      rw [first, ih lengths.2 rest]

/-- **The parts of a line are read back from it, if their lengths are known.** -/
theorem joined_inj {mark : Char} {parts parts' : List Line}
    (lengths : parts.map List.length = parts'.map List.length)
    (h : joined mark parts = joined mark parts') : parts = parts' := by
  cases parts with
  | nil =>
    cases parts' with
    | nil => rfl
    | cons => simp at lengths
  | cons part parts =>
    cases parts' with
    | nil => simp at lengths
    | cons part' parts' =>
      simp only [List.map_cons, List.cons.injEq] at lengths
      simp only [joined, List.cons_append, List.append_assoc, List.cons.injEq, true_and] at h
      obtain ⟨first, rest⟩ := List.append_inj h lengths.1
      rw [first, flatMap_cons_inj lengths.2 rest]

theorem mark_mem_joined (mark : Char) {parts : List Line} (h : 1 < parts.length) :
    mark ∈ joined mark parts := by
  cases parts with
  | nil => simp at h
  | cons part parts =>
    cases parts with
    | nil => simp at h
    | cons part' parts => simp [joined]

theorem not_mem_joined {c mark : Char} {parts : List Line} (blank : c ≠ ' ') (hm : c ≠ mark)
    (h : ∀ part ∈ parts, c ∉ part) : c ∉ joined mark parts := by
  cases parts with
  | nil => simp [joined, blank]
  | cons part parts =>
    have first := h part List.mem_cons_self
    have others : ∀ p ∈ parts, c ∉ p := fun p hp => h p (List.mem_cons_of_mem part hp)
    simpa [joined, blank, hm, first] using others

/-! ## 2. Rules -/

/-- A rule behind its first column: a mark and dashes for each further column, and a blank. -/
def ruleTail (mark : Char) (widths : List Nat) : Line :=
  widths.flatMap (fun width => mark :: List.replicate (width + 2) '─') ++ [' ']

theorem ruleTail_cons (mark : Char) (width : Nat) (widths : List Nat) :
    ruleTail mark (width :: widths) =
      mark :: List.replicate (width + 2) '─' ++ ruleTail mark widths := by
  simp [ruleTail]

theorem rule_cons (mark : Char) (width : Nat) (widths : List Nat) :
    rule mark (width :: widths) =
      ' ' :: List.replicate (width + 2) '─' ++ ruleTail mark widths := by
  simp [rule, joined, ruleTail, List.flatMap_map]

section Rules

variable {mark : Char} (blank : mark ≠ ' ') (dash : mark ≠ '─')

include dash in
/-- The dashes of a column end at a mark or at the blank behind the last column. -/
theorem dashes_append_inj {v w : Nat} {vs ws : List Nat} {r s : Line}
    (h : List.replicate (v + 2) '─' ++ (ruleTail mark vs ++ r) =
      List.replicate (w + 2) '─' ++ (ruleTail mark ws ++ s)) :
    v = w ∧ ruleTail mark vs ++ r = ruleTail mark ws ++ s := by
  have ended : ∀ (widths : List Nat) (more : Line),
      ∃ c rest, ruleTail mark widths ++ more = c :: rest ∧ c ≠ '─' := by
    intro widths more
    cases widths with
    | nil => exact ⟨' ', more, rfl, by decide⟩
    | cons width widths => exact ⟨mark, _, by rw [ruleTail_cons]; rfl, dash⟩
  obtain ⟨c, r', left, hc⟩ := ended vs r
  obtain ⟨d, s', right, hd⟩ := ended ws s
  rw [left, right] at h
  obtain ⟨dashes, head, rest⟩ := append_cons_inj (p := (· = '─'))
    (fun _ => List.eq_of_mem_replicate) (fun _ => List.eq_of_mem_replicate) hc hd h
  have widths : v = w := by simpa using congrArg List.length dashes
  exact ⟨widths, by rw [left, right, head, rest]⟩

include blank dash in
theorem ruleTail_append_inj {vs ws : List Nat} {r s : Line}
    (h : ruleTail mark vs ++ r = ruleTail mark ws ++ s) : vs = ws ∧ r = s := by
  induction vs generalizing ws with
  | nil =>
    cases ws with
    | nil => exact ⟨rfl, (List.cons.inj h).2⟩
    | cons w ws =>
      rw [ruleTail_cons] at h
      exact absurd (List.cons.inj h).1.symm blank
  | cons v vs ih =>
    cases ws with
    | nil =>
      rw [ruleTail_cons] at h
      exact absurd (List.cons.inj h).1 blank
    | cons w ws =>
      simp only [ruleTail_cons, List.cons_append, List.append_assoc, List.cons.injEq,
        true_and] at h
      obtain ⟨width, rest⟩ := dashes_append_inj dash h
      obtain ⟨widths, more⟩ := ih rest
      exact ⟨by rw [width, widths], more⟩

include blank dash in
/-- **A rule determines the widths it was drawn for**, whatever follows it. -/
theorem rule_append_inj {vs ws : List Nat} {r s : Line}
    (h : rule mark vs ++ r = rule mark ws ++ s) : vs = ws ∧ r = s := by
  have empty : ∀ (w : Nat) (ws : List Nat) (r s : Line),
      rule mark [] ++ r ≠ rule mark (w :: ws) ++ s := by
    intro w ws r s h
    rw [rule_cons] at h
    exact absurd (List.cons.inj (List.cons.inj h).2).1 (by decide)
  cases vs with
  | nil =>
    cases ws with
    | nil => exact ⟨rfl, (List.cons.inj (List.cons.inj h).2).2⟩
    | cons w ws => exact absurd h (empty w ws r s)
  | cons v vs =>
    cases ws with
    | nil => exact absurd h.symm (empty v vs s r)
    | cons w ws =>
      simp only [rule_cons, List.cons_append, List.append_assoc, List.cons.injEq, true_and] at h
      obtain ⟨width, rest⟩ := dashes_append_inj dash h
      obtain ⟨widths, more⟩ := ruleTail_append_inj blank dash rest
      exact ⟨by rw [width, widths], more⟩

end Rules

/-! ## 3. Tables -/

theorem Cell.not_mem_part {cell : Cell} {c : Char} (blank : c ≠ ' ')
    (h : ∀ line ∈ cell.lines, c ∉ line) (width k : Nat) : c ∉ cell.part width k := by
  have plain : c ∉ cell.lines[k]?.getD [] := by
    cases hl : cell.lines[k]? with
    | none => exact List.not_mem_nil
    | some line => exact h line (List.mem_of_getElem? hl)
  simp [part, mem_fill, blank, plain]

namespace Grid

variable {n : Nat}

/-- One line of a row, as the parts of its columns. -/
def strip (widths : List Nat) (cells : List Cell) (line : Nat) : List Line :=
  List.zipWith (fun width cell => cell.part width line) widths cells

/-- The lines between the rules of a table, each as the parts of its columns. -/
def strips (g : Grid n) : List (List Line) :=
  g.rows.flatMap fun row =>
    (List.range (height row.toList)).map (strip g.widths.toList row.toList)

theorem render_eq (g : Grid n) :
    g.render = rowLines g.widths.toList g.titles.toList ++ rule '┼' g.widths.toList ::
      (g.strips.map (joined '│') ++ [rule '┴' g.widths.toList]) := by
  have body : g.strips.map (joined '│') =
      g.rows.flatMap fun row => rowLines g.widths.toList row.toList := by
    simp only [strips, List.map_flatMap, List.map_map]
    rfl
  simp [render, body]

/-- The parts of a line are as long as their columns are wide, with a blank on both sides. -/
theorem length_of_mem_strips (g : Grid n) {parts : List Line} (h : parts ∈ g.strips) :
    parts.map List.length = g.widths.toList.map (· + 2) := by
  obtain ⟨row, hr, h⟩ := List.mem_flatMap.mp h
  obtain ⟨line, _, rfl⟩ := List.mem_map.mp h
  refine List.ext_getElem (by simp [strip]) fun i h₁ h₂ => ?_
  have hi : i < n := by simpa using h₂
  simp [strip, Cell.length_part (g.width_le_widths (.inr hr) hi)]

/-- **The lines of a table determine its widths and what stands between its rules.** -/
theorem strips_of_render_eq {g g' : Grid n} (titles : g.titles = g'.titles)
    (h : g.render = g'.render) : g.widths = g'.widths ∧ g.strips = g'.strips := by
  rw [render_eq, render_eq, titles] at h
  obtain ⟨_, below⟩ := List.append_inj h (by rw [length_rowLines, length_rowLines])
  obtain ⟨rules, body⟩ := List.cons.inj below
  have widths : g.widths = g'.widths := by
    have same := rule_append_inj (r := []) (s := []) (by decide) (by decide)
      (congrArg (· ++ []) rules)
    exact Vector.toList_inj.mp same.1
  refine ⟨widths, ?_⟩
  obtain ⟨lines, _⟩ := List.append_inj' body rfl
  have count : g.strips.length = g'.strips.length := by simpa using congrArg List.length lines
  refine List.ext_getElem count fun k hk hk' => ?_
  have lengths : g.strips[k].map List.length = g'.strips[k].map List.length := by
    rw [g.length_of_mem_strips (List.getElem_mem hk),
      g'.length_of_mem_strips (List.getElem_mem hk'), widths]
  have same : joined '│' g.strips[k] = joined '│' g'.strips[k] := by
    simpa [hk, hk'] using congrArg (·[k]?) lines
  exact joined_inj lengths same

/-- The parts of a line are the lines of the cells, filled up with blanks. -/
theorem fill_of_strip_eq {widths : Vector Nat n} {row row' : Vector Cell n} {line : Nat}
    (h : strip widths.toList row.toList line = strip widths.toList row'.toList line) {i : Nat}
    (hi : i < n) :
    fill row[i].align widths[i] (row[i].lines[line]?.getD []) =
      fill row'[i].align widths[i] (row'[i].lines[line]?.getD []) := by
  have part : row[i].part widths[i] line = row'[i].part widths[i] line := by
    simpa [strip, hi] using congrArg (·[i]?) h
  simpa [Cell.part] using part

/-! ## 4. Tables of one row, and tables of low rows -/

theorem strips_of_low {g : Grid n} (low : ∀ row ∈ g.rows, height row.toList = 1) :
    g.strips = g.rows.map fun row => strip g.widths.toList row.toList 0 := by
  rw [List.map_eq_flatMap, strips, List.flatMap_def, List.flatMap_def]
  refine congrArg List.flatten (List.map_congr_left fun row hr => ?_)
  rw [low row hr]
  rfl

theorem strips_singleton {g : Grid n} {row : Vector Cell n} (h : g.rows = [row]) :
    g.strips = (List.range (height row.toList)).map (strip g.widths.toList row.toList) := by
  simp [strips, h]

/-- No cell is higher than its row. -/
theorem length_lines_le_height (row : Vector Cell n) {i : Nat} (hi : i < n) :
    row[i].lines.length ≤ height row.toList := by
  have mem : row[i].lines.length ∈ row.toList.map (·.lines.length) :=
    List.mem_map_of_mem (by simp)
  exact Nat.le_trans (le_greatest mem) (Nat.le_max_right _ _)

/-- **The lines of a table of one row determine the lines of its cells**, filled up with blanks. -/
theorem fill_of_render_eq {g g' : Grid n} (titles : g.titles = g'.titles)
    {row row' : Vector Cell n} (hr : g.rows = [row]) (hr' : g'.rows = [row'])
    (h : g.render = g'.render) {i : Nat} (hi : i < n) (line : Nat) :
    fill row[i].align g.widths[i] (row[i].lines[line]?.getD []) =
      fill row'[i].align g.widths[i] (row'[i].lines[line]?.getD []) := by
  obtain ⟨widths, same⟩ := strips_of_render_eq titles h
  rw [strips_singleton hr, strips_singleton hr', ← widths] at same
  have heights : height row.toList = height row'.toList := by
    simpa using congrArg List.length same
  by_cases inside : line < height row.toList
  · have parts : strip g.widths.toList row.toList line = strip g.widths.toList row'.toList line := by
      simpa [inside, heights ▸ inside] using congrArg (·[line]?) same
    exact fill_of_strip_eq parts hi
  · have below := length_lines_le_height row hi
    have below' := length_lines_le_height row' hi
    rw [List.getElem?_eq_none (by omega), List.getElem?_eq_none (by omega)]
    simp [fill_nil]

/-! ## 5. A table in a cell -/

/-- The line below the titles is a rule. -/
theorem getElem?_render_rule (g : Grid n) :
    g.render[height g.titles.toList]? = some (rule '┼' g.widths.toList) := by
  rw [render_eq, List.getElem?_append_right (Nat.le_of_eq (length_rowLines _ _)), length_rowLines]
  simp

/-- No line of a table of two columns or more is blank. -/
theorem visible_of_mem_render (g : Grid (n + 2)) {line : Line} (h : line ∈ g.render) :
    ∃ c ∈ line, c ≠ ' ' := by
  have marked : ∀ (mark : Char) (parts : List Line), parts.length = n + 2 → mark ≠ ' ' →
      ∃ c ∈ joined mark parts, c ≠ ' ' :=
    fun mark parts many visible => ⟨mark, mark_mem_joined mark (by omega), visible⟩
  have row : ∀ row : Vector Cell (n + 2), line ∈ rowLines g.widths.toList row.toList →
      ∃ c ∈ line, c ≠ ' ' := by
    intro row h
    obtain ⟨k, _, rfl⟩ := List.mem_map.mp h
    exact marked '│' _ (by simp) (by decide)
  simp only [render, List.mem_append, List.mem_singleton, List.mem_flatMap] at h
  rcases h with ((h | rfl) | ⟨r, _, h⟩) | rfl
  · exact row g.titles h
  · exact marked '┼' _ (by simp) (by decide)
  · exact row r h
  · exact marked '┴' _ (by simp) (by decide)

/-- **A table in a cell can be read back**: blanks behind its lines and blank lines below it do not
    matter. -/
theorem render_eq_of_fill_eq {g g' : Grid (n + 2)} (titles : g.titles = g'.titles) (width : Nat)
    (h : ∀ line : Nat, fill .left width (g.render[line]?.getD []) =
      fill .left width (g'.render[line]?.getD [])) : g.render = g'.render := by
  have widths : g.widths = g'.widths := by
    have rules := h (height g.titles.toList)
    rw [getElem?_render_rule, titles, getElem?_render_rule] at rules
    exact Vector.toList_inj.mp (rule_append_inj (by decide) (by decide) rules).1
  have lengths : g.lineLength = g'.lineLength := by rw [lineLength, lineLength, widths]
  -- Lines of the same length are told apart before the blanks, and no line of one table stands
  -- beside a blank line below the other, because no line of a table is blank.
  refine List.ext_getElem? fun k => ?_
  have filled := h k
  cases hl : g.render[k]? with
  | none =>
    cases hl' : g'.render[k]? with
    | none => rfl
    | some line' =>
      obtain ⟨c, there, visible⟩ := g'.visible_of_mem_render (List.mem_of_getElem? hl')
      rw [hl, hl'] at filled
      exact absurd filled.symm (fill_ne_fill_nil there visible)
  | some line =>
    have mem := List.mem_of_getElem? hl
    cases hl' : g'.render[k]? with
    | none =>
      obtain ⟨c, there, visible⟩ := g.visible_of_mem_render mem
      rw [hl, hl'] at filled
      exact absurd filled (fill_ne_fill_nil there visible)
    | some line' =>
      have mem' := List.mem_of_getElem? hl'
      have long : line.length = line'.length := by
        rw [g.length_of_mem_render mem, g'.length_of_mem_render mem', lengths]
      rw [hl, hl'] at filled
      exact congrArg some (List.append_inj filled long).1

/-- **Tables side by side in the one row of a table are read back from its lines.** -/
theorem render_eq_of_cell_eq {g g' : Grid n} (titles : g.titles = g'.titles)
    {row row' : Vector Cell n} (hr : g.rows = [row]) (hr' : g'.rows = [row'])
    (h : g.render = g'.render) {k i : Nat} (hi : i < n) {t t' : Grid (k + 2)}
    (inner : t.titles = t'.titles) (cell : row[i] = ⟨.left, t.render⟩)
    (cell' : row'[i] = ⟨.left, t'.render⟩) : t.render = t'.render := by
  refine render_eq_of_fill_eq inner g.widths[i] fun line => ?_
  have filled := fill_of_render_eq titles hr hr' h hi line
  rw [cell, cell'] at filled
  exact filled

/-! ## 6. The characters of a table -/

/-- The characters that tables are drawn with. -/
def frame : List Char := [' ', '│', '┼', '┴', '─']

/-- **A character that is in no cell, and that tables are not drawn with, is in no line.** -/
theorem not_mem_render (g : Grid n) {c : Char} (undrawn : c ∉ frame)
    (h : ∀ row, row = g.titles ∨ row ∈ g.rows → ∀ cell ∈ row, ∀ line ∈ cell.lines, c ∉ line)
    {line : Line} (hl : line ∈ g.render) : c ∉ line := by
  simp only [frame, List.mem_cons, List.not_mem_nil, or_false, not_or] at undrawn
  obtain ⟨blank, bar, cross, foot, dash⟩ := undrawn
  have rules : ∀ mark, c ≠ mark → c ∉ rule mark g.widths.toList := by
    intro mark hm
    refine not_mem_joined blank hm fun part hp there => ?_
    obtain ⟨width, _, rfl⟩ := List.mem_map.mp hp
    exact dash (List.eq_of_mem_replicate there)
  have rows : ∀ row : Vector Cell n, row = g.titles ∨ row ∈ g.rows →
      line ∈ rowLines g.widths.toList row.toList → c ∉ line := by
    intro row hr h'
    obtain ⟨k, _, rfl⟩ := List.mem_map.mp h'
    refine not_mem_joined blank bar fun part hp => ?_
    obtain ⟨i, hi, rfl⟩ := List.getElem_of_mem hp
    have inside : i < n := by simpa using hi
    simpa using Cell.not_mem_part blank (h row hr row[i] (Vector.getElem_mem inside)) g.widths[i] k
  simp only [render, List.mem_append, List.mem_singleton, List.mem_flatMap] at hl
  rcases hl with ((hl | rfl) | ⟨row, hr, hl⟩) | rfl
  · exact rows g.titles (.inl rfl) hl
  · exact rules '┼' cross
  · exact rows row (.inr hr) hl
  · exact rules '┴' foot

end Grid

end ByteMachine.Text
