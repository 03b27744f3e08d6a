import ByteMachine.Fault

/-!
# The log

What the machine and its dispatch table say while they work. `Event` lists the occasions, each
with the values its line shows; `Event.level` and `Event.text` give the line.
-/

namespace ByteMachine

open Text

/-- How much a line of the log matters. -/
inductive Level where
  | trace
  | debug
  | warn
  deriving DecidableEq, Repr

/-- The word that opens a line of this level. -/
def Level.text : Level → String
  | .trace => "TRACE"
  | .debug => "DEBUG"
  | .warn => "WARN"

/-- The word a registration uses for an arity. -/
def Arity.text : Arity → String
  | .unary => "Unary"
  | .binary => "Binary"

/-- The occasions on which a line is written. -/
inductive Event where
  /-- A machine is about to be made. -/
  | creating (size : Offset) (bank : BankId)
  /-- A bundled command enters the table of the core plugin. -/
  | bundling (mnemonic : String) (opcode : Opcode)
  /-- A handler was registered. -/
  | registering (opcode : Opcode) (arity : Arity)
  /-- A second handler for an opcode was refused. -/
  | handlerClash (opcode : Opcode)
  /-- An opcode was named. -/
  | naming (opcode : Opcode) (mnemonic : String)
  /-- A name was refused because it, or its opcode, is taken. -/
  | nameClash (mnemonic : String) (opcode : Opcode)
  /-- A handler is about to be run, if its cells exist. -/
  | dispatching (mnemonic : Option String) (first second : Offset)
  /-- A handler failed. -/
  | failing (opcode : Opcode) (fault : Fault)
  /-- The instruction pointer was moved. -/
  | jumping (source target : Int64)
  /-- A subroutine was entered. -/
  | calling (source target : Int64)
  /-- A subroutine was left. -/
  | returning (source target : Int64)
  deriving DecidableEq, Repr

namespace Event

/-- How much the occasion matters. -/
def level : Event → Level
  | .bundling .. | .registering .. | .naming .. | .jumping .. => .trace
  | .handlerClash .. | .nameClash .. => .warn
  | .creating .. | .dispatching .. | .failing .. | .calling .. | .returning .. => .debug

/-- A move of the instruction pointer. -/
def move (source target : Int64) : String :=
  decimal source.toInt ++ " -> " ++ decimal target.toInt

/-- The line without its level. -/
def text : Event → String
  | .creating size bank =>
    "creating machine with " ++ decimal size.toInt ++ " cells in bank " ++ decimal bank.toInt
  | .bundling mnemonic opcode => "registering " ++ mnemonic ++ " as " ++ opcode.text
  | .registering opcode arity => "registering " ++ opcode.text ++ " (" ++ arity.text ++ ")"
  | .handlerClash opcode => "duplicate registration of command " ++ opcode.text
  | .naming opcode mnemonic => "naming " ++ opcode.text ++ " " ++ mnemonic
  | .nameClash mnemonic opcode =>
    "duplicate mnemonic " ++ mnemonic ++ " for command " ++ opcode.text
  | .dispatching mnemonic first second =>
    "dispatch " ++ mnemonic.getD "?" ++ "(" ++ decimal first.toInt ++ ", " ++
      decimal second.toInt ++ ")"
  | .failing opcode fault => "command " ++ opcode.text ++ " failed: " ++ fault.message
  | .jumping source target => "jump " ++ move source target
  | .calling source target => "call " ++ move source target
  | .returning source target => "return " ++ move source target

/-- The line as the log holds it. -/
def line (e : Event) : String := e.level.text ++ " " ++ e.text

end Event

end ByteMachine
