import ByteMachine.Text.Decimal

/-!
# Opcodes

A command names its handler by two numbers: the plugin that provides it, and its place in that
plugin's list of commands. Opcodes are ordered by plugin and then by command.
-/

namespace ByteMachine

open Text

/-- A source of commands. -/
abbrev PluginId := Int32

/-- The place of a command in its plugin's list. -/
abbrev CommandId := Int32

/-- The key a handler is registered under. -/
structure Opcode where
  /-- The plugin that provides the command. -/
  plugin : PluginId
  /-- The command's place in that plugin. -/
  command : CommandId
  deriving DecidableEq, Hashable, Repr

namespace Opcode

/-- An opcode as `plugin.command`. -/
def text (o : Opcode) : String :=
  decimal o.plugin.toInt ++ "." ++ decimal o.command.toInt

/-- By plugin, and by command inside one plugin. -/
instance : Ord Opcode := ⟨compareLex (compareOn plugin) (compareOn command)⟩

instance : Std.TransOrd Opcode :=
  inferInstanceAs (Std.TransCmp (compareLex (compareOn plugin) (compareOn command)))

/-- Only equal opcodes compare as equal. -/
instance : Std.LawfulEqOrd Opcode where
  eq_of_compare {a b} h := by
    have parts : (compare a.plugin b.plugin).then (compare a.command b.command) = .eq := h
    obtain ⟨hp, hc⟩ := Ordering.then_eq_eq.mp parts
    obtain ⟨p, c⟩ := a
    obtain ⟨q, d⟩ := b
    cases Std.LawfulEqOrd.eq_of_compare hp
    cases Std.LawfulEqOrd.eq_of_compare hc
    rfl

end Opcode

/-- Which operands a handler reads. -/
inductive Arity where
  /-- Only the destination: the second operand is ignored and need not name a cell. -/
  | unary
  /-- The destination and the source. -/
  | binary
  deriving DecidableEq, Repr

end ByteMachine
