import ByteMachine.Machine.Picture
import ByteMachine.Proofs.Memory.Cell
import ByteMachine.Proofs.Text.Layout

/-!
# What the picture of a machine says

The picture is read back from the outside in: its lines (`picture_eq_unlines`), what the header
says (`header_eq_iff`), the four tables below it (`tables_of_render_eq`), the items of each table
(`items_of_render_eq`), and the machine's parts from the items (`memoryItems_eq_iff`,
`registerItems_eq_iff`, `operandItems_eq_iff`, `returnItems_eq_iff`).

So two machines have the same picture exactly if they are alike in everything but the cells that
it leaves out (`picture_eq_iff`).
-/

namespace ByteMachine.Machine

open Text

/-! ## 1. Items that can be read back -/

/-- The item's texts are not blank at the ends at which its table fills them up, and each is one
    line. -/
structure Item.Legible (item : Item) : Prop where
  key_starts : StartsVisible item.key.toList
  value_ends : EndsVisible item.value.toList
  key_line : '\n' ∉ item.key.toList
  value_line : '\n' ∉ item.value.toList

theorem strips_itemGrid (title : String) (items : List Item) :
    (itemGrid title items).strips =
      items.map fun item => Grid.strip (itemGrid title items).widths.toList item.row.toList 0 := by
  rw [Grid.strips_of_low, itemGrid, List.map_map]
  · rfl
  · intro row hr
    obtain ⟨item, _, rfl⟩ := List.mem_map.mp hr
    rfl

theorem Item.eq_of_strip_eq {x y : Item} (hx : x.Legible) (hy : y.Legible) {widths : Vector Nat 2}
    (h : Grid.strip widths.toList x.row.toList 0 = Grid.strip widths.toList y.row.toList 0) :
    x = y := by
  have key : (x.key ++ " =").toList = (y.key ++ " =").toList := by
    refine fill_right_inj ?_ ?_ (Grid.fill_of_strip_eq h (show 0 < 2 by decide))
    · simpa using hx.key_starts.append [' ', '=']
    · simpa using hy.key_starts.append [' ', '=']
  have value : x.value.toList = y.value.toList :=
    fill_left_inj hx.value_ends hy.value_ends (Grid.fill_of_strip_eq h (show 1 < 2 by decide))
  obtain ⟨key₁, value₁⟩ := x
  obtain ⟨key₂, value₂⟩ := y
  simp only [String.toList_append, List.append_cancel_right_eq, String.toList_inj] at key value
  rw [key, value]

/-- **The items of a table are read back from its lines.** -/
theorem items_of_render_eq {title : String} {items items' : List Item}
    (hx : ∀ item ∈ items, item.Legible) (hy : ∀ item ∈ items', item.Legible)
    (h : (itemGrid title items).render = (itemGrid title items').render) : items = items' := by
  -- The rows are one line high, so each strip between the rules shows one item.
  have titles : (itemGrid title items).titles = (itemGrid title items').titles := rfl
  obtain ⟨widths, same⟩ := Grid.strips_of_render_eq titles h
  rw [strips_itemGrid, strips_itemGrid, ← widths] at same
  have count : items.length = items'.length := by simpa using congrArg List.length same
  refine List.ext_getElem count fun k hk hk' => ?_
  have parts := congrArg (·[k]?) same
  simp only [List.getElem?_map, List.getElem?_eq_getElem hk, List.getElem?_eq_getElem hk',
    Option.map_some, Option.some.injEq] at parts
  exact Item.eq_of_strip_eq (hx _ (List.getElem_mem hk)) (hy _ (List.getElem_mem hk')) parts

/-- No line of the table of legible items holds a line break. -/
theorem newline_not_mem_itemGrid {title : String} (ht : '\n' ∉ title.toList) {items : List Item}
    (h : ∀ item ∈ items, item.Legible) {line : Line} (hl : line ∈ (itemGrid title items).render) :
    '\n' ∉ line := by
  refine Grid.not_mem_render _ (by decide) (fun row hr cell hc l hl => ?_) hl
  rcases hr with rfl | hr
  · simp only [itemGrid, Vector.mem_mk, List.mem_toArray, List.mem_cons, List.not_mem_nil,
      or_false] at hc
    rcases hc with rfl | rfl
    · rw [List.mem_singleton.mp hl]
      exact ht
    · rw [List.mem_singleton.mp hl]
      decide
  · obtain ⟨item, mem, rfl⟩ := List.mem_map.mp hr
    have legible := h item mem
    simp only [Item.row, Vector.mem_mk, List.mem_toArray, List.mem_cons, List.not_mem_nil,
      or_false] at hc
    rcases hc with rfl | rfl
    · rw [List.mem_singleton.mp hl]
      simpa using legible.key_line
    · rw [List.mem_singleton.mp hl]
      exact legible.value_line

/-! ## 2. The items of a machine -/

theorem legible_memoryItems (m : Machine) : ∀ item ∈ m.memoryItems, item.Legible := by
  intro item mem
  obtain ⟨⟨value, i⟩, _, rfl⟩ := List.mem_map.mp mem
  constructor
  · simp only [String.toList_append, toList_decimal]
    exact ((startsVisible_decimal _).append _).append _
  · simp only [String.toList_append, toList_hexByte]
    split
    · exact EndsVisible.append ⟨" (locked".toList, ')', rfl, by decide⟩ _
    · simpa using endsVisible_hexByte value
  · simp only [String.toList_append, toList_decimal, decimalNat, List.mem_append,
      newline_not_mem_decimal, false_or, or_false]
    decide
  · simp only [String.toList_append, toList_hexByte, List.mem_append, newline_not_mem_hexByte,
      false_or]
    split <;> decide

/-- A register's name is one word. -/
theorem registerName_word (r : Register) :
    r.name.toList ≠ [] ∧ ' ' ∉ r.name.toList ∧ '\n' ∉ r.name.toList := by
  cases r <;> decide

theorem legible_registerItems (m : Machine) : ∀ item ∈ m.registerItems, item.Legible := by
  intro item mem
  obtain ⟨⟨r, value⟩, _, rfl⟩ := List.mem_map.mp mem
  obtain ⟨filled, unspaced, unbroken⟩ := registerName_word r
  constructor
  · exact startsVisible_of_not_mem filled unspaced
  · simpa using endsVisible_hexByte value
  · exact unbroken
  · simpa using newline_not_mem_hexByte value

theorem legible_stackItems {entries : List String}
    (h : ∀ value ∈ entries, ∃ n : Int, value = decimal n) :
    ∀ item ∈ stackItems entries, item.Legible := by
  intro item mem
  obtain ⟨⟨value, i⟩, there, rfl⟩ := List.mem_map.mp mem
  obtain ⟨n, rfl⟩ := h value (List.fst_mem_of_mem_zipIdx there)
  constructor
  · simp only [String.toList_append]
    split
    · exact StartsVisible.append ⟨'*', " --> ".toList, rfl, by decide⟩ _
    · simpa [decimalNat] using startsVisible_decimal i
  · simpa using endsVisible_decimal n
  · simp only [String.toList_append, decimalNat, toList_decimal, List.mem_append,
      newline_not_mem_decimal, or_false]
    split <;> decide
  · simpa using newline_not_mem_decimal n

theorem legible_operandItems (m : Machine) : ∀ item ∈ m.operandItems, item.Legible := by
  refine legible_stackItems fun value mem => ?_
  obtain ⟨byte, _, rfl⟩ := List.mem_map.mp mem
  exact ⟨byte.toNat, rfl⟩

theorem legible_returnItems (m : Machine) : ∀ item ∈ m.returnItems, item.Legible := by
  refine legible_stackItems fun value mem => ?_
  obtain ⟨target, _, rfl⟩ := List.mem_map.mp mem
  exact ⟨target.toInt, rfl⟩

/-! ## 3. The machine behind the items -/

/-- The offset names a cell of the primary memory that the picture shows. -/
def Shows (m : Machine) (o : Offset) : Prop := 0 ≤ o ∧ o < 32 ∧ o < m.memory.size

section Cells

variable {m n : Machine} {o : Offset}

theorem Shows.contains (h : m.Shows o) : m.memory.Contains o :=
  Bank.contains_iff.mpr ⟨h.1, h.2.2⟩

theorem Shows.place_lt (h : m.Shows o) : o.toNatClampNeg < shownCells := by
  have low := Int64.cast_toNatClampNeg o h.1
  have high := Int64.lt_iff_toInt_lt.mp h.2.1
  rw [← low] at high
  exact Int.ofNat_lt.mp high

/-- Every place that is shown is the place of an offset. -/
theorem exists_shows {i : Nat} (shown : i < shownCells) (hi : i < m.memory.cells.size) :
    ∃ o, m.Shows o ∧ o.toNatClampNeg = i := by
  have value : (Int64.ofNat i).toInt = i :=
    Int64.toInt_ofNat_of_lt (Nat.lt_trans hi m.memory.size_lt)
  refine ⟨Int64.ofNat i, ⟨?_, ?_, ?_⟩, ?_⟩
  · rw [Int64.le_iff_toInt_le, value]
    exact Int.natCast_nonneg i
  · rw [Int64.lt_iff_toInt_lt, value]
    exact Int.ofNat_lt.mpr shown
  · rw [Int64.lt_iff_toInt_lt, value, Bank.toInt_size]
    exact Int.ofNat_lt.mpr hi
  · exact Int64.toNatClampNeg_ofNat_of_lt (Nat.lt_trans hi m.memory.size_lt)

theorem length_memoryItems (m : Machine) :
    m.memoryItems.length = min shownCells m.memory.cells.size := by
  simp [memoryItems]

theorem getElem?_memoryItems (h : m.Shows o) :
    m.memoryItems[o.toNatClampNeg]? = some {
      key := decimal m.bankId.toInt ++ ":" ++ decimalNat o.toNatClampNeg
      value := hexByte (m.memory.byteAt o) ++ if o ∈ m.memory.locks then " (locked)" else "" } := by
  have inside := h.contains.2
  simp [memoryItems, h.place_lt, inside, Bank.byteAt, Int64.ofNat_toNatClampNeg o h.1]

/-- The text of a cell determines its byte and whether it is locked. -/
theorem cellText_inj {a b : Byte} {p q : Prop} [Decidable p] [Decidable q]
    (h : (hexByte a ++ if p then " (locked)" else "") =
      hexByte b ++ if q then " (locked)" else "") : a = b ∧ (p ↔ q) := by
  have chars := congrArg String.toList h
  simp only [String.toList_append, toList_hexByte] at chars
  obtain ⟨bytes, marks⟩ := List.append_inj chars rfl
  refine ⟨hexByteChars_inj bytes, ?_⟩
  by_cases hp : p <;> by_cases hq : q <;> simp [hp, hq] at marks ⊢

/-- The text in front of a cell determines the bank. -/
theorem cellKey_inj {a b : BankId} {i : Nat}
    (h : decimal a.toInt ++ ":" ++ decimalNat i = decimal b.toInt ++ ":" ++ decimalNat i) :
    a = b := by
  have chars := congrArg String.toList h
  simp only [String.toList_append, List.append_cancel_right_eq, toList_decimal] at chars
  exact Int16.toInt_inj.mp (decimalChars_inj chars)

theorem length_eq_of_size_eq (size : m.memory.size = n.memory.size) :
    m.memory.cells.size = n.memory.cells.size := by
  have same := congrArg Int64.toInt size
  rw [Bank.toInt_size, Bank.toInt_size] at same
  exact Int.ofNat_inj.mp same

theorem Shows.of_size_eq (size : m.memory.size = n.memory.size) (h : m.Shows o) : n.Shows o :=
  ⟨h.1, h.2.1, size ▸ h.2.2⟩

/-- What a read and a question for the lock answer about a cell that both pictures show. -/
theorem answers_eq_iff (hm : m.Shows o) (hn : n.Shows o) :
    (m.memory.read o = n.memory.read o ∧ m.memory.isLocked o = n.memory.isLocked o) ↔
      m.memory.byteAt o = n.memory.byteAt o ∧ (o ∈ m.memory.locks ↔ o ∈ n.memory.locks) := by
  rw [Bank.read_of_contains_eq hm.contains, Bank.read_of_contains_eq hn.contains,
    Bank.isLocked_of_contains hm.contains, Bank.isLocked_of_contains hn.contains]
  simp

theorem item_eq_iff (hm : m.Shows o) (hn : n.Shows o) :
    m.memoryItems[o.toNatClampNeg]? = n.memoryItems[o.toNatClampNeg]? ↔
      m.bankId = n.bankId ∧ m.memory.read o = n.memory.read o ∧
        m.memory.isLocked o = n.memory.isLocked o := by
  rw [getElem?_memoryItems hm, getElem?_memoryItems hn, answers_eq_iff hm hn, Option.some.injEq,
    Item.mk.injEq]
  constructor
  · rintro ⟨key, value⟩
    exact ⟨cellKey_inj key, cellText_inj value⟩
  · rintro ⟨bank, byte, lock⟩
    simp only [bank, byte, lock, and_self]

/-- **The memory's items show what its first cells hold, which of them are locked, and the number
    of the bank**, if there is a cell at all. -/
theorem memoryItems_eq_iff (size : m.memory.size = n.memory.size) :
    m.memoryItems = n.memoryItems ↔
      (∀ o, m.Shows o → m.memory.read o = n.memory.read o ∧
        m.memory.isLocked o = n.memory.isLocked o) ∧
      (0 < m.memory.size → m.bankId = n.bankId) := by
  constructor
  · intro same
    have shown : ∀ o, m.Shows o → m.bankId = n.bankId ∧ m.memory.read o = n.memory.read o ∧
        m.memory.isLocked o = n.memory.isLocked o :=
      fun o h => (item_eq_iff h (h.of_size_eq size)).mp (by rw [same])
    exact ⟨fun o h => (shown o h).2,
      fun positive => (shown 0 ⟨Int64.le_refl 0, by decide, positive⟩).1⟩
  · rintro ⟨cells, bank⟩
    have count := length_eq_of_size_eq size
    refine List.ext_getElem? fun i => ?_
    by_cases shown : i < shownCells ∧ i < m.memory.cells.size
    · obtain ⟨o, h, rfl⟩ := exists_shows shown.1 shown.2
      have positive : 0 < m.memory.size := Int64.lt_of_le_of_lt h.1 h.2.2
      exact (item_eq_iff h (h.of_size_eq size)).mpr ⟨bank positive, cells o h⟩
    · have short := length_memoryItems m
      have short' := length_memoryItems n
      rw [List.getElem?_eq_none (by omega), List.getElem?_eq_none (by omega)]

end Cells

/-- The registers' items show what every byte register holds. -/
theorem registerItems_eq_iff {m n : Machine} :
    m.registerItems = n.registerItems ↔ m.registers.bytes = n.registers.bytes := by
  have values : ∀ k : Machine,
      k.registerItems.map Item.value = k.registers.bytes.toList.map hexByte := by
    intro k
    have bytes : k.registers.contents.map Prod.snd = k.registers.bytes.toList :=
      List.map_snd_zip (by simp)
    rw [← bytes, registerItems, List.map_map, List.map_map]
    rfl
  constructor
  · intro same
    have texts := congrArg (List.map Item.value) same
    rw [values, values] at texts
    exact Vector.toList_inj.mp ((List.map_inj_right fun _ _ => hexByte_inj).mp texts)
  · intro same
    rw [registerItems, registerItems, RegisterFile.contents, RegisterFile.contents, same]

/-- The items of a stack show its entries from bottom to top. -/
theorem stackItems_eq_iff {α : Type} {text : α → String} (inj : ∀ x y, text x = text y → x = y)
    {xs ys : List α} :
    stackItems (xs.reverse.map text) = stackItems (ys.reverse.map text) ↔ xs = ys := by
  have values : ∀ entries, (stackItems entries).map Item.value = entries := by
    intro entries
    simp [stackItems, Function.comp_def]
  constructor
  · intro same
    have texts := congrArg (List.map Item.value) same
    rw [values, values, List.map_inj_right inj] at texts
    exact List.reverse_inj.mp texts
  · rintro rfl
    rfl

theorem operandItems_eq_iff {m n : Machine} :
    m.operandItems = n.operandItems ↔ m.stack.operands = n.stack.operands :=
  stackItems_eq_iff fun _ _ same => UInt8.toNat_inj.mp (Int.ofNat_inj.mp (decimal_inj same))

theorem returnItems_eq_iff {m n : Machine} :
    m.returnItems = n.returnItems ↔ m.stack.returns = n.stack.returns :=
  stackItems_eq_iff fun _ _ same => Int64.toInt_inj.mp (decimal_inj same)

/-! ## 4. The whole picture -/

theorem header_toList (m : Machine) :
    m.header.toList = "IP: ".toList ++ (decimalChars m.ip.toInt ++ '\t' :: ("Memory: ".toList ++
      (decimalChars m.memory.size.toInt ++ ' ' :: ("cells".toList ++ m.elision.toList)))) := by
  simp [header]

/-- The characters of the header are those of its words and of numbers. -/
theorem not_mem_header (m : Machine) {c : Char} (number : ¬ (c.isDigit ∨ c = '-'))
    (word : c ∉ "IP: \tMemory: cells (not shown)".toList) : c ∉ m.header.toList := by
  have digits : ∀ n, c ∉ decimalChars n := fun n => not_mem_decimalChars number
  have elision : c ∉ m.elision.toList := by
    unfold elision
    split
    · simp_all [decimalNat]
    · simp
  simp_all [header_toList]

theorem newline_not_mem_header (m : Machine) : '\n' ∉ m.header.toList :=
  m.not_mem_header (by decide) (by decide)

/-- The header shows the instruction pointer and the size of the memory. -/
theorem header_eq_iff {m n : Machine} :
    m.header = n.header ↔ m.ip = n.ip ∧ m.memory.size = n.memory.size := by
  constructor
  · intro same
    have chars := congrArg String.toList same
    rw [header_toList, header_toList, List.append_cancel_left_eq] at chars
    obtain ⟨ip, _, rest⟩ := decimal_append_inj (by decide) (by decide) chars
    rw [List.append_cancel_left_eq] at rest
    obtain ⟨size, _⟩ := decimal_append_inj (by decide) (by decide) rest
    exact ⟨Int64.toInt_inj.mp ip, Int64.toInt_inj.mp size⟩
  · rintro ⟨ip, size⟩
    rw [header, header, elision, elision, ip, size, length_eq_of_size_eq size]

theorem picture_eq_unlines (m : Machine) :
    m.picture = unlines (m.header.toList :: m.grid.render) := by
  refine String.toList_inj.mp ?_
  simp [picture, toList_unlines]

theorem newline_not_mem_grid (m : Machine) {line : Line} (h : line ∈ m.grid.render) :
    '\n' ∉ line := by
  refine Grid.not_mem_render _ (by decide) (fun row hr cell hc l hl => ?_) h
  rcases hr with rfl | hr
  · simp only [grid, sideBySide, Vector.mem_mk, List.mem_toArray, List.mem_cons, List.not_mem_nil,
      or_false] at hc
    rcases hc with rfl | rfl | rfl | rfl <;> rw [List.mem_singleton.mp hl] <;> decide
  · simp only [grid, sideBySide, List.mem_singleton] at hr
    subst hr
    simp only [Vector.mem_mk, List.mem_toArray, List.mem_cons, List.not_mem_nil, or_false] at hc
    rcases hc with rfl | rfl | rfl | rfl
    · exact newline_not_mem_itemGrid (by decide) m.legible_memoryItems hl
    · exact newline_not_mem_itemGrid (by decide) m.legible_registerItems hl
    · exact newline_not_mem_itemGrid (by decide) m.legible_operandItems hl
    · exact newline_not_mem_itemGrid (by decide) m.legible_returnItems hl

/-- **Tables side by side are read back from their common lines.** -/
theorem tables_of_render_eq {a b c d a' b' c' d' : List Item}
    (h : (sideBySide a b c d).render = (sideBySide a' b' c' d').render) :
    (itemGrid "Cell" a).render = (itemGrid "Cell" a').render ∧
    (itemGrid "Register" b).render = (itemGrid "Register" b').render ∧
    (itemGrid "Operand" c).render = (itemGrid "Operand" c').render ∧
    (itemGrid "Return" d).render = (itemGrid "Return" d').render := by
  have titles : (sideBySide a b c d).titles = (sideBySide a' b' c' d').titles := rfl
  exact ⟨Grid.render_eq_of_cell_eq titles rfl rfl h (show 0 < 4 by decide) rfl rfl rfl,
    Grid.render_eq_of_cell_eq titles rfl rfl h (show 1 < 4 by decide) rfl rfl rfl,
    Grid.render_eq_of_cell_eq titles rfl rfl h (show 2 < 4 by decide) rfl rfl rfl,
    Grid.render_eq_of_cell_eq titles rfl rfl h (show 3 < 4 by decide) rfl rfl rfl⟩

theorem items_of_grid_eq {m n : Machine} (h : m.grid.render = n.grid.render) :
    m.memoryItems = n.memoryItems ∧ m.registerItems = n.registerItems ∧
      m.operandItems = n.operandItems ∧ m.returnItems = n.returnItems := by
  obtain ⟨memory, registers, operands, returns⟩ := tables_of_render_eq h
  exact ⟨items_of_render_eq m.legible_memoryItems n.legible_memoryItems memory,
    items_of_render_eq m.legible_registerItems n.legible_registerItems registers,
    items_of_render_eq m.legible_operandItems n.legible_operandItems operands,
    items_of_render_eq m.legible_returnItems n.legible_returnItems returns⟩

/-- The machines are alike in everything that a picture shows: all but the cells that it leaves
    out, and the number of a bank without cells. -/
structure LookAlike (m n : Machine) : Prop where
  ip : m.ip = n.ip
  size : m.memory.size = n.memory.size
  registers : m.registers.bytes = n.registers.bytes
  operands : m.stack.operands = n.stack.operands
  returns : m.stack.returns = n.stack.returns
  cells : ∀ o, m.Shows o →
    m.memory.read o = n.memory.read o ∧ m.memory.isLocked o = n.memory.isLocked o
  bank : 0 < m.memory.size → m.bankId = n.bankId

/-- **The picture is faithful**: two machines have the same picture exactly if they look alike. -/
theorem picture_eq_iff {m n : Machine} : m.picture = n.picture ↔ m.LookAlike n := by
  constructor
  · intro same
    rw [picture_eq_unlines, picture_eq_unlines] at same
    have whole : ∀ (k : Machine), ∀ line ∈ k.header.toList :: k.grid.render, '\n' ∉ line := by
      intro k line there
      rcases List.mem_cons.mp there with rfl | there
      · exact k.newline_not_mem_header
      · exact k.newline_not_mem_grid there
    obtain ⟨headers, grids⟩ := List.cons.inj (unlines_inj (whole m) (whole n) same)
    obtain ⟨ip, size⟩ := header_eq_iff.mp (String.toList_inj.mp headers)
    obtain ⟨memory, registers, operands, returns⟩ := items_of_grid_eq grids
    obtain ⟨cells, bank⟩ := (memoryItems_eq_iff size).mp memory
    exact ⟨ip, size, registerItems_eq_iff.mp registers, operandItems_eq_iff.mp operands,
      returnItems_eq_iff.mp returns, cells, bank⟩
  · intro alike
    have headers : m.header = n.header := header_eq_iff.mpr ⟨alike.ip, alike.size⟩
    have memory := (memoryItems_eq_iff alike.size).mpr ⟨alike.cells, alike.bank⟩
    have registers := registerItems_eq_iff.mpr alike.registers
    have operands := operandItems_eq_iff.mpr alike.operands
    have returns := returnItems_eq_iff.mpr alike.returns
    have grids : m.grid = n.grid := by
      rw [grid, grid, memory, registers, operands, returns]
    rw [picture, picture, headers, grids]

end ByteMachine.Machine
