import ByteMachine.Instruction.Command

/-!
# The core plugin: bitwise logic

Eight connectives on byte cells. Each takes a destination and a source cell of the primary memory
and leaves its value in the destination. Four are single steps, of which negation looks at the
destination only; the other four are two steps on the same pair of cells, the second of which
sees what the first has written:

* `eqv` is `xor` and then `not`, `nand` is `and` and then `not`, `nor` is `or` and then `not`;
* `imp` is `not` and then `or`. Its first step does not look at the source, so the source is
  looked up before it.

A connective's number is its place in `Connective.all`.
-/

namespace ByteMachine

/-- What runs a command: it is given the cells of the destination and the source. -/
abbrev Handler := Offset → Offset → Action Machine Unit

/-- The commands of the core plugin. -/
inductive Connective where
  | and | or | not | xor | eqv | imp | nand | nor
  deriving DecidableEq, Repr

namespace Connective

/-! ## 1. Names and numbers -/

/-- All connectives in the order of their numbers. -/
def all : List Connective := [.and, .or, .not, .xor, .eqv, .imp, .nand, .nor]

/-- The connective's number: its place in `all`. -/
def code (c : Connective) : UInt8 := UInt8.ofNat (all.idxOf c)

/-- The connective's name. -/
def mnemonic : Connective → String
  | .and => "and"
  | .or => "or"
  | .not => "not"
  | .xor => "xor"
  | .eqv => "eqv"
  | .imp => "imp"
  | .nand => "nand"
  | .nor => "nor"

/-- The plugin that the connectives belong to. -/
def plugin : PluginId := 0

/-- The connective's opcode. -/
def opcode (c : Connective) : Opcode := ⟨plugin, Int32.ofNat c.code.toNat⟩

/-- Negation looks at the destination only, all others at both cells. -/
def arity : Connective → Arity
  | .not => .unary
  | _ => .binary

/-- The connective with this number. -/
def ofCode? (code : UInt8) : Option Connective := all[code.toNat]?

/-- The connective with exactly this name. -/
def ofName? (name : String) : Option Connective := all.find? (·.mnemonic == name)

/-- The connective with this number, or the report that there is none. -/
def numbered (code : UInt8) : Except LookupFault Connective :=
  match ofCode? code with
  | some c => .ok c
  | none => .error (.unknownCode .coreCommands code)

/-- The connective with this name, or the report that there is none. -/
def named (name : String) : Except LookupFault Connective :=
  match ofName? name with
  | some c => .ok c
  | none => .error .unknownName

theorem mem_all (c : Connective) : c ∈ all := by
  cases c <;> decide

@[simp] theorem ofCode?_code (c : Connective) : ofCode? c.code = some c := by
  cases c <;> rfl

@[simp] theorem ofName?_mnemonic (c : Connective) : ofName? c.mnemonic = some c := by
  cases c <;> decide

theorem opcode_inj {c d : Connective} (h : c.opcode = d.opcode) : c = d := by
  revert h
  cases c <;> cases d <;> decide

/-! ## 2. Handlers -/

/-- Joins both cells byte by byte and leaves the value in the destination. -/
def combine (f : Byte → Byte → Byte) : Handler := fun dst src => do
  let d ← Machine.valueAt dst
  let s ← Machine.valueAt src
  Machine.setValueAt dst (f d s)

/-- Flips every bit of the destination. The source does not matter. -/
def negate : Handler := fun dst _ => do
  let d ← Machine.valueAt dst
  Machine.setValueAt dst (~~~d)

/-- How a connective runs. -/
def handler : Connective → Handler
  | .and => combine (· &&& ·)
  | .or => combine (· ||| ·)
  | .not => negate
  | .xor => combine (· ^^^ ·)
  | .eqv => fun dst src => do
    combine (· ^^^ ·) dst src
    negate dst src
  | .imp => fun dst src => do
    let _ ← Machine.valueAt src
    negate dst src
    combine (· ||| ·) dst src
  | .nand => fun dst src => do
    combine (· &&& ·) dst src
    negate dst src
  | .nor => fun dst src => do
    combine (· ||| ·) dst src
    negate dst src

end Connective

end ByteMachine
