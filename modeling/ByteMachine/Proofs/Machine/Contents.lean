import ByteMachine.Proofs.Machine.Rectangle
import ByteMachine.Proofs.Machine.WriteLock
import ByteMachine.Proofs.Register.History
import ByteMachine.Proofs.Text.Content

/-!
# What stands in the picture of a machine

Below its header the picture shows four lists of items side by side, each as a table of its own
(`depicts_picture`). What the items are is said row by row (`lists_memoryItems`,
`lists_registerItems`, `lists_stackItems`), and the header says whether cells are left out
(`notShown_infix_header_iff`).

A word that tables are not drawn with stands in the picture as often as in the header, the captions
and the items together (`Depicts.occurrences_eq`). Locked cells are the only items with a bracket,
so there is a mark for each of them among the first cells and no other (`occurrences_locked`). For
this the locked offsets must lie inside the memory, as they do after every run.

`picture_holds_state` puts this together.
-/

namespace ByteMachine.Machine

open Text

/-! ## 1. Tables of items side by side -/

/-- Items with the title of their table and the caption above it. -/
structure Listing where
  /-- What stands above the table. -/
  caption : String
  /-- What stands above the first column of the table. -/
  title : String
  /-- What the rows of the table show, from top to bottom. -/
  items : List Item

/-- The lines are a table of the items: titles, a rule, one line for each item, and a rule. -/
inductive Listing.Drawn (l : Listing) : List Line → Prop where
  | intro {titles upper lower : Line} {row : Item → Line}
      (head : Carries [l.title.toList, "Contents".toList] titles)
      (above : IsRule upper)
      (rows : ∀ item ∈ l.items,
        Carries [(item.key ++ " =").toList, item.value.toList] (row item))
      (below : IsRule lower) :
      l.Drawn (titles :: upper :: (l.items.map row ++ [lower]))

/-- The text consists of a header and, below it, the tables of the listings side by side under
    their captions: each line between the rules carries the lines that the tables have in one
    place. -/
inductive Depicts (header : String) (listings : List Listing) (text : String) : Prop where
  | intro {captions upper lower : Line} {height : Nat} {line : Nat → Line}
      {table : Listing → List Line}
      (head : Carries (listings.map (·.caption.toList)) captions)
      (above : IsRule upper)
      (tables : ∀ l ∈ listings, l.Drawn (table l) ∧ (table l).length ≤ height)
      (beside : ∀ k < height, Carries (listings.map fun l => (table l)[k]?.getD []) (line k))
      (below : IsRule lower)
      (lines : text.toList.splitOn '\n' =
        header.toList :: captions :: upper :: ((List.range height).map line ++ [lower, []]))

theorem drawn_itemGrid (l : Listing) : l.Drawn (itemGrid l.title l.items).render := by
  have wide : (itemGrid l.title l.items).widths.toList ≠ [] :=
    List.ne_nil_of_length_pos (by simp)
  rw [Grid.render_eq, strips_itemGrid, List.map_map]
  exact .intro (Grid.carries_strip _ (itemGrid l.title l.items).titles 0)
    (isRule_rule (by decide) wide) (fun item _ => Grid.carries_strip _ item.row 0)
    (isRule_rule (by decide) wide)

/-- The four lists of items that the picture of a machine shows. -/
def listings (m : Machine) : List Listing :=
  [⟨"Memory", "Cell", m.memoryItems⟩, ⟨"Registers", "Register", m.registerItems⟩,
    ⟨"Operand Stack", "Operand", m.operandItems⟩, ⟨"Return Stack", "Return", m.returnItems⟩]

/-- **The picture shows the machine's items side by side below its header.** -/
theorem depicts_picture (m : Machine) : Depicts m.header m.listings m.picture := by
  obtain ⟨row, one, cells⟩ : ∃ row, m.grid.rows = [row] ∧
      row.toList = m.listings.map fun l => ⟨.left, (itemGrid l.title l.items).render⟩ :=
    ⟨_, rfl, rfl⟩
  have wide : m.grid.widths.toList ≠ [] := List.ne_nil_of_length_pos (by simp)
  have above : IsRule (rule '┼' m.grid.widths.toList) := isRule_rule (by decide) wide
  have below : IsRule (rule '┴' m.grid.widths.toList) := isRule_rule (by decide) wide
  have beside : ∀ k, Carries (m.listings.map fun l => (itemGrid l.title l.items).render[k]?.getD [])
      (joined '│' (Grid.strip m.grid.widths.toList row.toList k)) := by
    intro k
    have line := Grid.carries_strip m.grid.widths row k
    rw [cells, List.map_map] at line
    rw [cells]
    exact line
  have low : ∀ l ∈ m.listings, (itemGrid l.title l.items).render.length ≤ height row.toList := by
    intro l hl
    have member : (⟨.left, (itemGrid l.title l.items).render⟩ : Cell) ∈ row.toList := by
      rw [cells]
      exact List.mem_map.mpr ⟨l, hl, rfl⟩
    have high := le_greatest (List.mem_map_of_mem (f := fun cell => cell.lines.length) member)
    exact Nat.le_trans high (Nat.le_max_right _ _)
  have head : Carries (m.listings.map (·.caption.toList))
      (joined '│' (Grid.strip m.grid.widths.toList m.grid.titles.toList 0)) :=
    Grid.carries_strip m.grid.widths m.grid.titles 0
  refine .intro head above (fun l hl => ⟨drawn_itemGrid l, low l hl⟩) (fun k _ => beside k) below ?_
  rw [splitOn_picture, Grid.render_eq, Grid.strips_singleton one, List.map_map]
  simp only [List.append_assoc, List.cons_append, List.nil_append]
  rfl

/-! ## 2. How often a word stands in them -/

/-- The number of times that a word stands in the row of an item. -/
def Item.occurrences (word : Line) (item : Item) : Nat :=
  Text.occurrences word (item.key ++ " =").toList + Text.occurrences word item.value.toList

/-- The number of times that a word stands in the table of a listing. -/
def Listing.occurrences (word : Line) (l : Listing) : Nat :=
  Text.occurrences word l.title.toList + Text.occurrences word "Contents".toList +
    (l.items.map (Item.occurrences word)).sum

/-- A table is counted line by line, and places below its end count for nothing. -/
theorem sum_places {f : Line → Nat} (blank : f [] = 0) {height : Nat} {table : List Line}
    (low : table.length ≤ height) :
    ((List.range height).map fun k => f (table[k]?.getD [])).sum = (table.map f).sum := by
  induction table generalizing height with
  | nil => simp [blank]
  | cons line table ih =>
    cases height with
    | zero => cases low
    | succ height =>
      have rest := ih (Nat.le_of_succ_le_succ low)
      rw [List.range_succ_eq_map, List.map_cons, List.map_map, List.sum_cons, List.map_cons,
        List.sum_cons, ← rest]
      rfl

/-- Lines in the same place of several tables are counted table by table. -/
theorem sum_beside {f : Line → Nat} (blank : f [] = 0) {height : Nat} {tables : List (List Line)}
    (low : ∀ table ∈ tables, table.length ≤ height) :
    ((List.range height).map fun k => ((tables.map (·[k]?.getD [])).map f).sum).sum =
      (tables.map fun table => (table.map f).sum).sum := by
  induction tables with
  | nil => simp
  | cons table tables ih =>
    have first := sum_places blank (low table List.mem_cons_self)
    have others := ih fun t ht => low t (List.mem_cons_of_mem table ht)
    simp only [List.map_cons, List.sum_cons, List.sum_map_add]
    rw [first, others]

section Occurrences

variable {word : Line} (filled : word ≠ []) (undrawn : ∀ c ∈ word, c ∉ Grid.frame)

include filled undrawn

theorem Listing.Drawn.occurrences_eq {l : Listing} {lines : List Line} (h : l.Drawn lines) :
    (lines.map (Text.occurrences word)).sum = l.occurrences word := by
  cases h with
  | @intro titles upper lower row head above rows below =>
    have body : l.items.map (Text.occurrences word ∘ row) = l.items.map (Item.occurrences word) :=
      List.map_congr_left fun item there => by
        simp [occurrences_of_carries filled undrawn (rows item there), Item.occurrences]
    simp [occurrences_of_carries filled undrawn head, occurrences_of_isRule filled undrawn above,
      occurrences_of_isRule filled undrawn below, body, Listing.occurrences, Nat.add_assoc]

/-- **A word that tables are not drawn with stands where the header, a caption or an item has
    it.** -/
theorem Depicts.occurrences_eq {header text : String} {listings : List Listing}
    (unbroken : '\n' ∉ word) (h : Depicts header listings text) :
    Text.occurrences word text.toList = Text.occurrences word header.toList +
      (listings.map fun l => Text.occurrences word l.caption.toList).sum +
      (listings.map (Listing.occurrences word)).sum := by
  cases h with
  | @intro captions upper lower height line table head above tables beside below lines =>
    have drawn : (listings.map table).map (fun lines => (lines.map (Text.occurrences word)).sum) =
        listings.map (Listing.occurrences word) := by
      rw [List.map_map]
      exact List.map_congr_left fun l hl => (tables l hl).1.occurrences_eq filled undrawn
    have low : ∀ lines ∈ listings.map table, lines.length ≤ height := by
      intro lines there
      obtain ⟨l, hl, rfl⟩ := List.mem_map.mp there
      exact (tables l hl).2
    have rows : ((List.range height).map line).map (Text.occurrences word) =
        (List.range height).map fun k =>
          (((listings.map table).map (·[k]?.getD [])).map (Text.occurrences word)).sum := by
      rw [List.map_map]
      refine List.map_congr_left fun k hk => ?_
      have carried := occurrences_of_carries filled undrawn (beside k (List.mem_range.mp hk))
      simpa [Function.comp_def] using carried
    have body := sum_beside (f := Text.occurrences word) rfl low
    rw [drawn, ← rows] at body
    have named := occurrences_of_carries filled undrawn head
    rw [List.map_map] at named
    have ruled := occurrences_of_isRule filled undrawn above
    have ended := occurrences_of_isRule filled undrawn below
    rw [occurrences_splitOn filled unbroken, lines]
    simp only [List.map_cons, List.map_append, List.sum_cons, List.sum_append, body, named,
      ruled, ended, List.map_nil, List.sum_nil, Text.occurrences, Function.comp_def]
    omega

end Occurrences

/-! ## 3. The items, one by one -/

/-- There are so many items, and each is right for its place. -/
def Lists (items : List Item) (count : Nat) (right : Nat → Item → Prop) : Prop :=
  items.length = count ∧ ∀ k item, items[k]? = some item → right k item

/-- The row of the memory's table in place `k` shows the cell at offset `k`. -/
def CellRow (m : Machine) (k : Nat) (item : Item) : Prop :=
  ∃ byte, m.memory.read (Int64.ofNat k) = .ok byte ∧
    item.key = decimal m.bankId.toInt ++ ":" ++ decimalNat k ∧
    item.value = hexByte byte ++ if Int64.ofNat k ∈ m.memory.locks then " (locked)" else ""

/-- The row of the registers' table in place `k` shows the byte register that is numbered there, the
    instruction pointer not counted. -/
def RegisterRow (m : Machine) (k : Nat) (item : Item) : Prop :=
  ∃ r byte, r ≠ Register.ip ∧ r.place = k ∧ m.registers.read r = .ok byte ∧
    item.key = r.name ∧ item.value = hexByte byte

/-- The row of a stack's table in place `k` shows the entry that lies on `k` others, and points at
    it if it is the top. -/
def StackRow {α : Type} (text : α → String) (stack : List α) (k : Nat) (item : Item) : Prop :=
  ∃ entry, stack.reverse[k]? = some entry ∧
    item.key = (if k + 1 = stack.length then "* --> " else "") ++ decimalNat k ∧
    item.value = text entry

theorem lists_memoryItems (m : Machine) :
    Lists m.memoryItems (min m.memory.cells.size 32) m.CellRow := by
  have count : m.memoryItems.length = min m.memory.cells.size 32 := by
    rw [length_memoryItems, shownCells, Nat.min_comm]
  refine ⟨count, fun k item there => ?_⟩
  have short := (List.getElem?_eq_some_iff.mp there).1
  rw [count, Nat.lt_min] at short
  obtain ⟨o, shown, rfl⟩ := exists_shows short.2 short.1
  rw [getElem?_memoryItems shown] at there
  cases there
  rw [CellRow, Int64.ofNat_toNatClampNeg o shown.1]
  exact ⟨_, Bank.read_of_contains_eq shown.contains, rfl, rfl⟩

theorem lists_registerItems (m : Machine) : Lists m.registerItems 27 m.RegisterRow := by
  refine ⟨m.length_registerItems, fun k item there => ?_⟩
  have short : k < Register.bytes.length := by
    rw [Register.length_bytes, ← m.length_registerItems]
    exact (List.getElem?_eq_some_iff.mp there).1
  have place : Register.bytes[k].place = k := Register.place_bytes short
  have byte : Register.bytes[k] ≠ .ip := Register.mem_bytes.mp (List.getElem_mem short)
  obtain ⟨_, read, _⟩ := RegisterFile.access_at_place byte m.registers 0
  simp only [registerItems, RegisterFile.contents, List.getElem?_map, List.getElem?_eq_getElem,
    List.length_zip, Vector.length_toList, Nat.min_self, short, List.getElem_zip,
    Vector.getElem_toList, Option.map_some, Option.some.injEq] at there
  subst there
  refine ⟨Register.bytes[k], _, byte, place, read, rfl, ?_⟩
  simp only [place]

theorem lists_stackItems {α : Type} (text : α → String) (stack : List α) :
    Lists (stackItems (stack.reverse.map text)) stack.length (StackRow text stack) := by
  refine ⟨length_stackItems text stack, fun k item there => ?_⟩
  have short := (List.getElem?_eq_some_iff.mp there).1
  rw [length_stackItems] at short
  cases entry : stack.reverse[k]? with
  | none => simp [short] at entry
  | some x =>
    simp only [stackItems, List.getElem?_map, List.getElem?_zipIdx, entry, Option.map_some,
      Option.some.injEq, List.length_map, List.length_reverse, Nat.zero_add] at there
    subst there
    exact ⟨x, entry, rfl, rfl⟩

theorem lists_operandItems (m : Machine) :
    Lists m.operandItems m.stack.operands.length
      (StackRow (fun value => decimalNat value.toNat) m.stack.operands) :=
  lists_stackItems _ _

theorem lists_returnItems (m : Machine) :
    Lists m.returnItems m.stack.returns.length
      (StackRow (fun target => decimal target.toInt) m.stack.returns) :=
  lists_stackItems _ _

/-! ## 4. Cells that are left out -/

/-- What the header says if `k` cells are left out. -/
def notShown (k : Nat) : String := "(" ++ decimalNat k ++ " cells not shown)"

theorem toList_notShown (k : Nat) :
    (notShown k).toList = '(' :: (decimalChars k ++ ' ' :: "cells not shown)".toList) := by
  simp [notShown, decimalNat]

/-- In front of what it says about cells that are left out, the header has no bracket. -/
theorem header_eq_append (m : Machine) :
    ∃ front, '(' ∉ front ∧ m.header.toList = front ++
      if 32 < m.memory.cells.size then (notShown (m.memory.cells.size - 32)).toList else [] := by
  refine ⟨"IP: ".toList ++ decimalChars m.ip.toInt ++ "\tMemory: ".toList ++
    decimalChars m.memory.size.toInt ++ " cells".toList ++
    (if 32 < m.memory.cells.size then [' '] else []), ?_, ?_⟩
  · split <;> simp [bracket_not_mem_decimal]
  · rw [header_toList, elision, shownCells]
    split <;> simp [notShown]

/-- **The header says how many cells are left out, if any are**, and it says this of no other
    number. -/
theorem notShown_infix_header_iff (m : Machine) (k : Nat) :
    (notShown k).toList <:+: m.header.toList ↔
      32 < m.memory.cells.size ∧ k = m.memory.cells.size - 32 := by
  obtain ⟨front, plain, header⟩ := m.header_eq_append
  rw [header]
  split
  case isTrue large =>
    refine Iff.trans ?_ (and_iff_right large).symm
    constructor
    · rintro ⟨before, behind, split⟩
      have once : '(' ∉ decimalChars (m.memory.cells.size - 32 : Nat) ++
          ' ' :: "cells not shown)".toList := by
        simp [bracket_not_mem_decimal]
      rw [toList_notShown, toList_notShown, List.append_assoc, List.cons_append,
        List.append_assoc, List.cons_append] at split
      obtain ⟨_, _, numbers⟩ := (List.append_cons_inj_of_notMem plain once).mp split.symm
      exact Int.ofNat_inj.mp (decimal_append_inj (by decide) (by decide) numbers.symm).1
    · rintro rfl
      exact (List.suffix_append _ _).isInfix
  case isFalse small =>
    refine iff_of_false (fun there => ?_) fun h => small h.1
    rw [toList_notShown, List.append_nil] at there
    exact plain (there.subset List.mem_cons_self)

/-! ## 5. Marks of locked cells -/

theorem Lists.map_eq {items : List Item} {count : Nat} {right : Nat → Item → Prop}
    (h : Lists items count right) {f : Item → Nat} {g : Nat → Nat}
    (each : ∀ k item, right k item → f item = g k) : items.map f = (List.range count).map g := by
  refine List.ext_getElem (by simp [h.1]) fun k hk _ => ?_
  rw [List.length_map] at hk
  simpa using each k items[k] (h.2 k _ (List.getElem?_eq_getElem hk))

/-- A row has the mark exactly if its cell is locked. -/
theorem CellRow.occurrences_locked {m : Machine} {k : Nat} {item : Item} (h : m.CellRow k item) :
    item.occurrences "(locked)".toList = if Int64.ofNat k ∈ m.memory.locks then 1 else 0 := by
  obtain ⟨byte, _, key, value⟩ := h
  have hex := bracket_not_mem_hexByte byte
  have front : occurrences "(locked)".toList (item.key ++ " =").toList = 0 := by
    refine occurrences_of_not_mem (c := '(') (by decide) ?_
    simp [key, decimalNat, bracket_not_mem_decimal]
  have back : occurrences "(locked)".toList item.value.toList =
      if Int64.ofNat k ∈ m.memory.locks then 1 else 0 := by
    rw [value]
    split
    · have parts : (hexByte byte ++ " (locked)").toList =
          hexByteChars byte ++ ' ' :: "(locked)".toList := by simp
      rw [parts, occurrences_append_cons (by decide) (by decide),
        occurrences_of_not_mem (c := '(') (by decide) hex]
      decide
    · exact occurrences_of_not_mem (c := '(') (by decide) (by simpa using hex)
  rw [Item.occurrences, front, back, Nat.zero_add]

/-- Among the cells that are shown, as many are locked as there are locked offsets below 32. -/
theorem countP_shown (m : Machine) (inside : ∀ o ∈ m.memory.locks, m.memory.Contains o) :
    (List.range (min m.memory.cells.size 32)).countP (Int64.ofNat · ∈ m.memory.locks) =
      m.memory.locks.offsets.countP (· < 32) := by
  have value : ∀ k < min m.memory.cells.size 32, (Int64.ofNat k).toInt = k :=
    fun k hk => Int64.toInt_ofNat_of_lt (by omega)
  have increasing : (((List.range (min m.memory.cells.size 32)).filter
      (Int64.ofNat · ∈ m.memory.locks)).map Int64.ofNat).Pairwise (· < ·) := by
    refine List.pairwise_map.mpr ((List.pairwise_lt_range.filter _).imp_of_mem ?_)
    intro k l hk hl less
    rw [Int64.lt_iff_toInt_lt, value k (List.mem_range.mp (List.mem_filter.mp hk).1),
      value l (List.mem_range.mp (List.mem_filter.mp hl).1)]
    exact Int.ofNat_lt.mpr less
  -- Increasing lists are equal if they have the same members.
  have same : LockSet.mk _ increasing =
      ⟨m.memory.locks.offsets.filter (· < 32), m.memory.locks.increasing.filter _⟩ := by
    refine LockSet.ext_mem fun o => ?_
    simp only [LockSet.mem_def, List.mem_map, List.mem_filter, List.mem_range, decide_eq_true_eq]
    constructor
    · rintro ⟨k, ⟨small, locked⟩, rfl⟩
      refine ⟨locked, ?_⟩
      rw [Int64.lt_iff_toInt_lt, value k small]
      exact Int.ofNat_lt.mpr (Nat.lt_of_lt_of_le small (Nat.min_le_right _ _))
    · rintro ⟨locked, small⟩
      have cell := inside o locked
      have shown : m.Shows o := ⟨cell.1, small, (Bank.contains_iff.mp cell).2⟩
      have back := Int64.ofNat_toNatClampNeg o cell.1
      refine ⟨o.toNatClampNeg, ⟨Nat.lt_min.mpr ⟨cell.2, shown.place_lt⟩, ?_⟩, back⟩
      rw [back]
      exact locked
  have lengths := congrArg (·.offsets.length) same
  rw [List.countP_eq_length_filter, List.countP_eq_length_filter]
  simpa using lengths

/-- Rows without a bracket have no mark. -/
theorem Lists.unmarked {items : List Item} {count : Nat} {right : Nat → Item → Prop}
    (h : Lists items count right)
    (plain : ∀ k item, right k item → '(' ∉ item.key.toList ∧ '(' ∉ item.value.toList) :
    (items.map (Item.occurrences "(locked)".toList)).sum = 0 := by
  have none : ∀ k item, right k item → item.occurrences "(locked)".toList = 0 := by
    intro k item there
    obtain ⟨key, value⟩ := plain k item there
    have front : '(' ∉ (item.key ++ " =").toList := by simpa using key
    rw [Item.occurrences, occurrences_of_not_mem (c := '(') (by decide) front,
      occurrences_of_not_mem (c := '(') (by decide) value]
  rw [h.map_eq (g := fun _ => 0) none]
  simp

theorem RegisterRow.plain {m : Machine} {k : Nat} {item : Item} (h : m.RegisterRow k item) :
    '(' ∉ item.key.toList ∧ '(' ∉ item.value.toList := by
  obtain ⟨r, byte, _, _, _, key, value⟩ := h
  rw [key, value, toList_hexByte]
  exact ⟨by cases r <;> decide, bracket_not_mem_hexByte byte⟩

theorem StackRow.plain {α : Type} {text : α → String} {stack : List α} {k : Nat} {item : Item}
    (numeric : ∀ x, ∃ n : Int, text x = decimal n) (h : StackRow text stack k item) :
    '(' ∉ item.key.toList ∧ '(' ∉ item.value.toList := by
  obtain ⟨entry, _, key, value⟩ := h
  obtain ⟨n, spelled⟩ := numeric entry
  rw [key, value, spelled]
  refine ⟨?_, by simp [bracket_not_mem_decimal]⟩
  split <;> simp [decimalNat, bracket_not_mem_decimal]

/-- **The picture marks as many cells as offsets below 32 are locked.** -/
theorem occurrences_locked (m : Machine) (inside : ∀ o ∈ m.memory.locks, m.memory.Contains o) :
    occurrences "(locked)".toList m.picture.toList =
      m.memory.locks.offsets.countP (· < 32) := by
  have header : occurrences "(locked)".toList m.header.toList = 0 :=
    occurrences_of_not_mem (c := 'k') (by decide) (m.not_mem_header (by decide) (by decide))
  have cells : (m.memoryItems.map (Item.occurrences "(locked)".toList)).sum =
      m.memory.locks.offsets.countP (· < 32) := by
    rw [m.lists_memoryItems.map_eq fun _ _ => CellRow.occurrences_locked, List.sum_map_ite,
      ← m.countP_shown inside]
    simp [List.countP_eq_length_filter]
  have registers := m.lists_registerItems.unmarked fun _ _ => RegisterRow.plain
  have operands := m.lists_operandItems.unmarked fun _ _ =>
    StackRow.plain fun value => ⟨value.toNat, rfl⟩
  have returns := m.lists_returnItems.unmarked fun _ _ =>
    StackRow.plain fun target => ⟨target.toInt, rfl⟩
  have words : ∀ text ∈ ["Memory", "Registers", "Operand Stack", "Return Stack", "Cell", "Register",
      "Operand", "Return", "Contents"], occurrences "(locked)".toList text.toList = 0 := by decide
  simp only [List.forall_mem_cons] at words
  have undrawn : ∀ c ∈ "(locked)".toList, c ∉ Grid.frame := by simp [Grid.frame]
  rw [m.depicts_picture.occurrences_eq (by decide) undrawn (by decide), header]
  simp only [listings, List.map_cons, List.map_nil, List.sum_cons, List.sum_nil,
    Listing.occurrences, cells, registers, operands, returns, words, Nat.zero_add, Nat.add_zero]

/-! ## 6. The whole picture -/

/-- What the picture of a machine holds. -/
structure PictureHolds (m : Machine) : Prop where
  /-- Below the header four lists are shown side by side, each as a table. -/
  tables : Depicts m.header m.listings m.picture
  /-- The memory's table shows the first cells. -/
  cells : Lists m.memoryItems (min m.memory.cells.size 32) m.CellRow
  /-- The registers' table shows every byte register. -/
  registers : Lists m.registerItems 27 m.RegisterRow
  /-- The operands are shown from bottom to top. -/
  operands : Lists m.operandItems m.stack.operands.length
    (StackRow (fun value => decimalNat value.toNat) m.stack.operands)
  /-- The return addresses are shown from bottom to top. -/
  returns : Lists m.returnItems m.stack.returns.length
    (StackRow (fun target => decimal target.toInt) m.stack.returns)
  /-- Every locked cell that is shown is marked, and nothing else is. -/
  locked : occurrences "(locked)".toList m.picture.toList =
    m.memory.locks.offsets.countP (· < 32)
  /-- The header says how many cells are left out, if any are. -/
  elided : ∀ k, (notShown k).toList <:+: m.header.toList ↔
    32 < m.memory.cells.size ∧ k = m.memory.cells.size - 32

/-- **After every run the picture holds the state of the machine.** -/
theorem picture_holds_state {config : Config} {m : Machine} (made : create config = .ok m)
    (steps : List Step) : (m.perform steps).PictureHolds where
  tables := depicts_picture _
  cells := lists_memoryItems _
  registers := lists_registerItems _
  operands := lists_operandItems _
  returns := lists_returnItems _
  locked := occurrences_locked _ (locks_inside_perform made steps)
  elided := notShown_infix_header_iff _

/-- In a machine of forty cells with three locked ones, two of these are shown and marked. -/
theorem picture_holds_state_forty_cells :
    ∃ m, create { memorySize := 40 } = .ok m ∧
      let after := m.perform [.ask (.memory (.lock 0)), .ask (.memory (.lock 5)),
        .ask (.memory (.lock 34))]
      after.PictureHolds ∧ occurrences "(locked)".toList after.picture.toList = 2 := by
  have holds := picture_holds_state (show create { memorySize := 40 } = .ok _ from rfl)
    [.ask (.memory (.lock 0)), .ask (.memory (.lock 5)), .ask (.memory (.lock 34))]
  exact ⟨_, rfl, holds, holds.locked.trans (by decide)⟩

end ByteMachine.Machine
