import ByteMachine.Action.Basic
import ByteMachine.Register.Basic

/-!
# The register file

The contents of all registers: one byte for each register of `Register.bytes`, and the 64-bit
instruction pointer. A byte register is reached by its name or by its number; the instruction
pointer is not a byte register and is refused on both ways.

`byte?` shows what a byte register holds. A write changes the register it names
(`byte?_write_self`) and no other (`byte?_write_of_ne`).
-/

namespace ByteMachine

open Text

/-- The place of a command in a program. -/
abbrev InstructionAddress := Int64

/-- The contents of the registers. -/
structure RegisterFile where
  /-- The byte registers, in the order of `Register.bytes`. -/
  bytes : Vector Byte Register.bytes.length
  /-- The instruction pointer. -/
  ip : InstructionAddress
  deriving DecidableEq

namespace RegisterFile

/-- Every register holds zero. -/
def zeroed : RegisterFile := ⟨Vector.replicate _ 0, 0⟩

/-- The place of a byte register in the file; the instruction pointer has none. -/
def slot (r : Register) : Except Fault (Fin Register.bytes.length) :=
  match Register.bytes.finIdxOf? r with
  | some i => .ok i
  | none => .error .instructionPointerMisuse

/-- The register with a number that a command carries. -/
def register (index : UInt8) : Except Fault Register :=
  match Register.ofCode? index with
  | some r => .ok r
  | none => .error (.invalidRegister index)

/-- The content of a byte register. -/
def read (f : RegisterFile) (r : Register) : Except Fault Byte := do
  let i ← slot r
  return f.bytes[i]

/-- Replaces the content of a byte register. -/
def write (r : Register) (value : Byte) : Action RegisterFile Unit := do
  let i ← .query fun _ => slot r
  .modify fun f => { f with bytes := f.bytes.set i value }

/-- The content of the byte register with this number. -/
def readIndexed (f : RegisterFile) (index : UInt8) : Except Fault Byte := do
  f.read (← register index)

/-- Replaces the content of the byte register with this number. -/
def writeIndexed (index : UInt8) (value : Byte) : Action RegisterFile Unit := do
  let r ← .query fun _ => register index
  write r value

/-- The file with the instruction pointer at `target`. -/
def jump (f : RegisterFile) (target : InstructionAddress) : RegisterFile := { f with ip := target }

/-- The file with the instruction pointer at the next command, wrapping around at 64 bits. -/
def advance (f : RegisterFile) : RegisterFile := f.jump (f.ip + 1)

/-- The byte registers with their contents, in the order of their numbers. -/
def contents (f : RegisterFile) : List (Register × Byte) := Register.bytes.zip f.bytes.toList

/-- The byte registers that do not hold zero, in the order of their numbers. -/
def occupied (f : RegisterFile) : List (Register × Byte) := f.contents.filter (·.2 ≠ 0)

/-- All registers on one line, the instruction pointer first. -/
def text (f : RegisterFile) : String :=
  "IP=" ++ decimal f.ip.toInt ++
    String.join (f.contents.map fun (r, value) => " " ++ r.name ++ "=" ++ hexByte value)

/-! ## What a register holds -/

/-- The content of a byte register; the instruction pointer holds none. -/
def byte? (f : RegisterFile) (r : Register) : Option Byte := (f.read r).toOption

theorem slot_ip : slot .ip = .error .instructionPointerMisuse := by rfl

/-- The register at a register's place is itself. -/
theorem bytes_slot {r : Register} {i : Fin Register.bytes.length} (h : slot r = .ok i) :
    Register.bytes[i] = r := by
  cases hi : Register.bytes.finIdxOf? r with
  | none => simp [slot, hi] at h
  | some j =>
    simp only [slot, hi, Except.ok.injEq] at h
    subst h
    exact (List.finIdxOf?_eq_some_iff.mp hi).1

/-- Two registers never share a place. -/
theorem slot_inj {r q : Register} {i : Fin Register.bytes.length} (hr : slot r = .ok i)
    (hq : slot q = .ok i) : r = q := by
  rw [← bytes_slot hr, ← bytes_slot hq]

/-- Every register but the instruction pointer has a place. -/
theorem exists_slot {r : Register} (h : r ≠ .ip) : ∃ i, slot r = .ok i := by
  cases hi : Register.bytes.finIdxOf? r with
  | none => exact absurd (Register.mem_bytes.mpr h) (List.finIdxOf?_eq_none_iff.mp hi)
  | some i => exact ⟨i, by simp [slot, hi]⟩

theorem read_ip (f : RegisterFile) : f.read .ip = .error .instructionPointerMisuse := by rfl

/-- A write of a byte register replaces the byte at its place. -/
theorem write_of_slot {r : Register} {i : Fin Register.bytes.length} (h : slot r = .ok i)
    (value : Byte) (f : RegisterFile) :
    (write r value).run f = ⟨.ok (), { f with bytes := f.bytes.set i value }, []⟩ :=
  Action.query_bind_of_ok h

theorem write_ip (value : Byte) (f : RegisterFile) :
    (write .ip value).run f = ⟨.error .instructionPointerMisuse, f, []⟩ :=
  Action.query_bind_of_error slot_ip

theorem byte?_of_slot {r : Register} {i : Fin Register.bytes.length} (h : slot r = .ok i)
    (f : RegisterFile) : f.byte? r = some f.bytes[i] := by
  simp [byte?, read, h, bind, Except.bind, pure, Except.pure, Except.toOption]

theorem byte?_write_self {r : Register} (h : r ≠ .ip) (value : Byte) (f : RegisterFile) :
    ((write r value).run f).state.byte? r = some value := by
  obtain ⟨i, hi⟩ := exists_slot h
  rw [write_of_slot hi, byte?_of_slot hi]
  simp

theorem byte?_write_of_ne {r q : Register} (hne : q ≠ r) (value : Byte) (f : RegisterFile) :
    ((write r value).run f).state.byte? q = f.byte? q := by
  by_cases hr : r = .ip
  · rw [hr, write_ip]
  · obtain ⟨i, hi⟩ := exists_slot hr
    rw [write_of_slot hi]
    by_cases hq : q = .ip
    · rw [hq]
      rfl
    · obtain ⟨j, hj⟩ := exists_slot hq
      have apart : i.val ≠ j.val := fun e => hne (slot_inj (Fin.ext e ▸ hj) hi)
      rw [byte?_of_slot hj, byte?_of_slot hj]
      exact congrArg some (Vector.getElem_set_ne i.isLt j.isLt apart)

end RegisterFile

end ByteMachine
