import ByteMachine.Memory.Address

/-!
# Answers

What a request to a part of the machine gives back when it is granted.
-/

namespace ByteMachine

/-- The values that requests give back. -/
inductive Answer where
  /-- Nothing but the news that it was done. -/
  | done
  /-- The content of a cell, a register or a stack entry. -/
  | byte (value : Byte)
  /-- A size, an offset or the place of a command. -/
  | word (value : Int64)
  /-- Yes or no. -/
  | flag (value : Bool)
  deriving DecidableEq, Repr

end ByteMachine
