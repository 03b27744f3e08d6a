import ByteMachine.Instruction.MemoryOnly

/-!
# Programs

A program is a list of commands of the core plugin. Running it executes the command that the
instruction pointer selects and moves on to the next one, until the pointer selects none; a
command that is refused is noted and skipped.

The commands of the core plugin work on the memory alone, so the instruction pointer goes up by
one with every command (`ip_perform`), and a run ends (`remaining_advance`).
-/

namespace ByteMachine

/-- A list of commands, to be run from the one that the instruction pointer selects. -/
abbrev Program := List Command

namespace Program

/-- The command at a place of the program. -/
def fetch? (p : Program) (ip : InstructionAddress) : Option Command :=
  if 0 ≤ ip then p[ip.toNatClampNeg]? else none

/-- A command that was executed. -/
structure Step where
  /-- Where it stands. -/
  ip : InstructionAddress
  /-- The command. -/
  command : Command
  /-- Why it was refused, if it was. -/
  fault : Option Fault
  deriving DecidableEq, Repr

/-- A finished run. -/
structure Run where
  /-- The executed commands in order. -/
  steps : List Step
  /-- The machine at the end. -/
  machine : Machine

/-- The machine after one command of the core plugin, and why the command was refused, if it
    was. -/
def perform (c : Command) (m : Machine) : Option Fault × Machine :=
  match (Table.core.execute c).run m with
  | ⟨.ok (), after, _⟩ => (none, (Machine.advance.run after).state)
  | ⟨.error fault, after, _⟩ => (some fault, (Machine.advance.run after).state)

/-- How many commands stand at the pointer and after it. -/
def remaining (p : Program) (ip : InstructionAddress) : Nat :=
  if 0 ≤ ip then p.length - ip.toNatClampNeg else 0

/-- Every command moves the instruction pointer by one. -/
theorem ip_perform (c : Command) (m : Machine) : (perform c m).2.ip = m.ip + 1 := by
  have kept := congrArg RegisterFile.ip ((Table.memoryOnly_execute_core c).keeps_registers m)
  unfold perform
  split
  next h =>
    rw [h] at kept
    exact congrArg (· + 1) kept
  next h =>
    rw [h] at kept
    exact congrArg (· + 1) kept

/-- Where a command was found, fewer remain behind it, wherever the next word wraps to. -/
theorem remaining_advance {p : Program} {ip : InstructionAddress} {c : Command}
    (h : p.fetch? ip = some c) : p.remaining (ip + 1) < p.remaining ip := by
  unfold fetch? at h
  split at h
  case isFalse => cases h
  case isTrue nonneg =>
    have inside : ip.toNatClampNeg < p.length := (List.getElem?_eq_some_iff.mp h).1
    simp only [remaining, nonneg, if_true]
    split
    case isFalse => omega
    case isTrue next_nonneg =>
      have here := Int64.cast_toNatClampNeg ip nonneg
      have there := Int64.cast_toNatClampNeg (ip + 1) next_nonneg
      have bound := ip.toInt_lt
      have sum : (ip + 1).toInt = (ip.toInt + 1).bmod (2 ^ 64) := Int64.toInt_add ip 1
      have low : (0 : Int) ≤ (ip + 1).toInt := by omega
      have exactly : (ip + 1).toInt = ip.toInt + 1 := by
        rw [sum] at low ⊢
        rw [Int.bmod_def] at low ⊢
        split at low <;> omega
      omega

/-- Runs the program from the command that the instruction pointer selects. -/
def run (p : Program) (m : Machine) : Run :=
  match _ : p.fetch? m.ip with
  | none => ⟨[], m⟩
  | some c =>
    let after := perform c m
    let rest := run p after.2
    ⟨⟨m.ip, c, after.1⟩ :: rest.steps, rest.machine⟩
termination_by p.remaining m.ip
decreasing_by
  rw [ip_perform]
  exact remaining_advance ‹_›

end Program

end ByteMachine
