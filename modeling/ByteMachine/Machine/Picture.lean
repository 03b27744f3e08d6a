import ByteMachine.Machine.Basic
import ByteMachine.Text.Grid

/-!
# The picture of a machine

A machine is shown as one line with the instruction pointer and the size of the memory, and below
it four tables side by side: the first cells of the primary memory, the byte registers, and the
two stacks from bottom to top. Each table has two columns: what is shown, and its content.

A cell is marked as locked if a search in the list of the locked cells finds it; that it finds all
of them is due to the order of the list (`LockSet.found_iff`). How the tables are laid out is
assumed in `Text.Grid`.
-/

namespace ByteMachine.Machine

open Text

/-! ## 1. What is shown -/

/-- How many cells of the memory are shown at most. -/
def shownCells : Nat := 32

/-- A shown thing and its content. -/
structure Item where
  /-- What is shown. -/
  key : String
  /-- What it holds. -/
  value : String
  deriving DecidableEq, Repr

/-- The first cells of the primary memory: each byte, and whether it is locked. -/
def memoryItems (m : Machine) : List Item :=
  let locked := m.memory.locks.offsets.toArray
  (m.memory.cells.toList.take shownCells).zipIdx.map fun (value, i) =>
    { key := decimal m.bankId.toInt ++ ":" ++ decimalNat i
      value := hexByte value ++ if found locked (Int64.ofNat i) then " (locked)" else "" }

/-- The byte registers in the order of their numbers. -/
def registerItems (m : Machine) : List Item :=
  m.registers.contents.map fun (r, value) => { key := r.name, value := hexByte value }

/-- The entries of a stack given from bottom to top, numbered from zero, with a mark at the
    top. -/
def stackItems (entries : List String) : List Item :=
  entries.zipIdx.map fun (value, i) =>
    { key := (if i + 1 = entries.length then "* --> " else "") ++ decimalNat i, value }

/-- The operand stack from bottom to top. -/
def operandItems (m : Machine) : List Item :=
  stackItems (m.stack.operands.reverse.map fun value => decimalNat value.toNat)

/-- The return stack from bottom to top. -/
def returnItems (m : Machine) : List Item :=
  stackItems (m.stack.returns.reverse.map fun target => decimal target.toInt)

/-! ## 2. The tables -/

/-- The row of a table that shows the item. -/
def Item.row (item : Item) : Vector Cell 2 :=
  #v[.ofText .right (item.key ++ " ="), .ofText .left item.value]

/-- The table of some items under a title. -/
def itemGrid (title : String) (items : List Item) : Grid 2 where
  titles := #v[.ofText .right title, .ofText .left "Contents"]
  rows := items.map Item.row

/-- The tables of four lists of items side by side. -/
def sideBySide (memory registers operands returns : List Item) : Grid 4 where
  titles := #v[.ofText .left "Memory", .ofText .left "Registers", .ofText .left "Operand Stack",
    .ofText .left "Return Stack"]
  rows := [#v[
    ⟨.left, (itemGrid "Cell" memory).render⟩,
    ⟨.left, (itemGrid "Register" registers).render⟩,
    ⟨.left, (itemGrid "Operand" operands).render⟩,
    ⟨.left, (itemGrid "Return" returns).render⟩]]

/-- The four tables of the machine. -/
def grid (m : Machine) : Grid 4 :=
  sideBySide m.memoryItems m.registerItems m.operandItems m.returnItems

/-- How many cells the picture leaves out, if any. -/
def elision (m : Machine) : String :=
  if shownCells < m.memory.cells.size then
    " (" ++ decimalNat (m.memory.cells.size - shownCells) ++ " cells not shown)"
  else ""

/-- The line above the tables. -/
def header (m : Machine) : String :=
  "IP: " ++ decimal m.ip.toInt ++ "\tMemory: " ++ decimal m.memory.size.toInt ++ " cells" ++
    m.elision

/-- The machine as text. -/
def picture (m : Machine) : String := m.header ++ "\n" ++ unlines m.grid.render

end ByteMachine.Machine
