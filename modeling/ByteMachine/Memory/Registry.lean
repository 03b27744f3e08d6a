import ByteMachine.Memory.Bank
import Std.Data.TreeMap

/-!
# Many banks

Whoever can find a bank by its number is a `Banks`, a look-up function; `Banks.readAt` reads the
cell of an address through it. `Registry` is a collection of banks under distinct numbers. A
number, once given away, keeps its bank: inserting a second one is refused
(`Registry.insert_of_some`), and the bank itself only changes through `Registry.replace`.
-/

namespace ByteMachine

/-- A way to find banks by their numbers. -/
abbrev Banks := BankId → Option Bank

/-- The content of the cell that an address names, in whichever bank it names. -/
def Banks.readAt (banks : Banks) (a : Address) : Except Fault Byte :=
  match banks a.bank with
  | some bank => bank.read a.offset
  | none => .error (.unknownBank a.bank)

namespace Banks

variable {banks other : Banks} {a : Address}

theorem readAt_of_some {bank : Bank} (found : banks a.bank = some bank) :
    banks.readAt a = bank.read a.offset := by
  unfold readAt
  rw [found]

theorem readAt_of_none (missing : banks a.bank = none) :
    banks.readAt a = .error (.unknownBank a.bank) := by
  unfold readAt
  rw [missing]

/-- Two ways to find banks that agree on the bank of an address agree on its cell. -/
theorem readAt_congr (same : banks a.bank = other a.bank) : banks.readAt a = other.readAt a := by
  unfold readAt
  rw [same]

end Banks

/-- Banks under distinct numbers. -/
structure Registry where
  /-- The banks by number. -/
  banks : Std.TreeMap BankId Bank

namespace Registry

/-- The registry without banks. -/
def empty : Registry := ⟨∅⟩

/-- The bank with this number. -/
def bank? (r : Registry) : Banks := fun id => r.banks[id]?

/-- The registry in which a number stands for a bank, whatever it stood for before. -/
def replace (r : Registry) (id : BankId) (bank : Bank) : Registry := ⟨r.banks.insert id bank⟩

/-- Adds a bank under a number that is free. -/
def insert (id : BankId) (bank : Bank) : Action Registry Unit := do
  match ← .view (·.bank? id) with
  | some _ => .fail (.duplicateBank id)
  | none => .modify (·.replace id bank)

@[simp] theorem bank?_empty (id : BankId) : empty.bank? id = none := by
  simp [bank?, empty]

theorem bank?_replace (r : Registry) (id key : BankId) (bank : Bank) :
    (r.replace id bank).bank? key = if id = key then some bank else r.bank? key := by
  simp [bank?, replace, Std.TreeMap.getElem?_insert]

theorem insert_of_some {r : Registry} {id : BankId} {old : Bank} (h : r.bank? id = some old)
    (bank : Bank) : (insert id bank).run r = ⟨.error (.duplicateBank id), r, []⟩ := by
  rw [insert, Action.run_view_bind]
  simp only [h]
  rfl

theorem insert_of_none {r : Registry} {id : BankId} (h : r.bank? id = none) (bank : Bank) :
    (insert id bank).run r = ⟨.ok (), r.replace id bank, []⟩ := by
  rw [insert, Action.run_view_bind]
  simp only [h]
  rfl

end Registry

end ByteMachine
