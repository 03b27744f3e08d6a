import ByteMachine.Action.Answer
import ByteMachine.Action.Basic
import ByteMachine.Action.Event
import ByteMachine.Demo
import ByteMachine.Fault
import ByteMachine.Instruction.Command
import ByteMachine.Instruction.Connective
import ByteMachine.Instruction.MemoryOnly
import ByteMachine.Instruction.Names
import ByteMachine.Instruction.Opcode
import ByteMachine.Instruction.Program
import ByteMachine.Instruction.Request
import ByteMachine.Instruction.Stock
import ByteMachine.Instruction.Table
import ByteMachine.Machine.Basic
import ByteMachine.Machine.Picture
import ByteMachine.Machine.Request
import ByteMachine.Machine.Stacks
import ByteMachine.Main
import ByteMachine.Memory.Address
import ByteMachine.Memory.Bank
import ByteMachine.Memory.LockSet
import ByteMachine.Memory.Registry
import ByteMachine.Memory.Request
import ByteMachine.Monitor.Basic
import ByteMachine.Monitor.Request
import ByteMachine.Order
import ByteMachine.Proofs.Atomicity
import ByteMachine.Proofs.Instruction.Commutation
import ByteMachine.Proofs.Instruction.Composite
import ByteMachine.Proofs.Instruction.Connective
import ByteMachine.Proofs.Instruction.CoreExecution
import ByteMachine.Proofs.Instruction.CoreLoading
import ByteMachine.Proofs.Instruction.Dispatch
import ByteMachine.Proofs.Instruction.Evaluation
import ByteMachine.Proofs.Instruction.Execution
import ByteMachine.Proofs.Instruction.LoadOrder
import ByteMachine.Proofs.Instruction.Logging
import ByteMachine.Proofs.Instruction.Precheck
import ByteMachine.Proofs.Instruction.Program
import ByteMachine.Proofs.Instruction.Rendering
import ByteMachine.Proofs.Instruction.Resolution
import ByteMachine.Proofs.Instruction.TableGrowth
import ByteMachine.Proofs.Machine.CallReturn
import ByteMachine.Proofs.Machine.Contents
import ByteMachine.Proofs.Machine.Noninterference
import ByteMachine.Proofs.Machine.Picture
import ByteMachine.Proofs.Machine.Rectangle
import ByteMachine.Proofs.Machine.Run
import ByteMachine.Proofs.Machine.Script
import ByteMachine.Proofs.Machine.WriteLock
import ByteMachine.Proofs.Memory.Cell
import ByteMachine.Proofs.Memory.Effect
import ByteMachine.Proofs.Memory.History
import ByteMachine.Proofs.Memory.Projection
import ByteMachine.Proofs.Memory.Slice
import ByteMachine.Proofs.Memory.Stepping
import ByteMachine.Proofs.Register.History
import ByteMachine.Proofs.Report
import ByteMachine.Proofs.Text.Content
import ByteMachine.Proofs.Text.Layout
import ByteMachine.Proofs.Text.Reading
import ByteMachine.Register.Basic
import ByteMachine.Register.File
import ByteMachine.Register.Request
import ByteMachine.Text.Decimal
import ByteMachine.Text.Grid
