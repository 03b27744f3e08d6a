import ByteMachine.Action.Answer
import ByteMachine.Memory.Registry

/-!
# Requests to memory

What can be asked of a bank, one operation at a time, and of a registry of banks. A request that
is refused leaves the bank or the registry as it was.
-/

namespace ByteMachine

namespace Bank

/-- One operation on a bank. -/
inductive Request where
  /-- How many cells are there? -/
  | size
  /-- What does a cell hold? -/
  | read (offset : Offset)
  /-- Store a byte in a cell. -/
  | write (offset : Offset) (value : Byte)
  /-- Store bytes in consecutive cells. -/
  | writeSlice (offset : Offset) (bytes : List Byte)
  /-- Write-lock a cell. -/
  | lock (offset : Offset)
  /-- Take the write-lock off a cell. -/
  | unlock (offset : Offset)
  /-- Is a cell write-locked? -/
  | isLocked (offset : Offset)
  deriving DecidableEq, Repr

/-- Carries out a request. -/
def serve : Request → Action Bank Answer
  | .size => .view fun b => .word b.size
  | .read o => .query fun b => (b.read o).map .byte
  | .write o value => do
    write o value
    return .done
  | .writeSlice o bytes => do
    writeSlice o bytes
    return .done
  | .lock o => do
    lock o
    return .done
  | .unlock o => do
    unlock o
    return .done
  | .isLocked o => .query fun b => (b.isLocked o).map .flag

/-- A bank of a given size that starts with some bytes. Without bytes nothing is written, so the
    bank may be empty. -/
def load (size : Offset) (bytes : List Byte) : Except Fault Bank := do
  let bank ← create size
  if bytes.isEmpty then return bank else (writeSlice 0 bytes).finish bank

end Bank

namespace Registry

/-- One operation on a registry. -/
inductive Request where
  /-- Add a bank under a number. -/
  | insert (id : BankId) (bank : Bank)
  /-- Ask something of the bank with a number. -/
  | bank (id : BankId) (request : Bank.Request)

/-- Runs an action on the bank with a number, if there is one. -/
def onBank {α : Type} (id : BankId) (a : Action Bank α) : Action Registry (Option α) := do
  match ← .view (·.bank? id) with
  | none => return none
  | some bank =>
    let answer ← .within (fun _ => bank) (fun bank r => r.replace id bank) a
    return some answer

/-- Carries out a request; there is no answer if it is for a bank that does not exist. -/
def serve : Request → Action Registry (Option Answer)
  | .insert id bank => do
    insert id bank
    return some .done
  | .bank id request => onBank id (Bank.serve request)

end Registry

end ByteMachine
