import DualStack.Machine.Trace
import DualStack.Memory.Disassembly
import DualStack.Proofs.Assembly.Correctness
import DualStack.Proofs.Assembly.Readback
import DualStack.Proofs.Assembly.Reassembly
import DualStack.Proofs.Machine.Consistency
import DualStack.Proofs.Machine.ControlFlow
import DualStack.Proofs.Processor.CallFrame
import DualStack.Proofs.Processor.Debugging
import DualStack.Proofs.Processor.Failure
import DualStack.Proofs.Machine.History
import DualStack.Proofs.Processor.Stores
import DualStack.Proofs.Machine.WorkingMemory
import DualStack.Proofs.Processor.LargerMemory
import DualStack.Proofs.Machine.LargerMemory
import DualStack.Proofs.Assembly.Relabeling
import DualStack.Proofs.Assembly.FirstError
import DualStack.Proofs.Assembly.OperandRange
import DualStack.Proofs.Processor.OpcodeTable
import DualStack.Proofs.Processor.Residue
import DualStack.Proofs.Processor.StackFrame
import DualStack.Proofs.Numeral.Grammar
import DualStack.Proofs.Processor.Termination
import DualStack.Proofs.Processor.StraightLine
import DualStack.Proofs.Text.UpperCase
import DualStack.Proofs.Assembly.Spacing
import DualStack.Proofs.Machine.Source
import DualStack.Proofs.Machine.Log
import DualStack.Proofs.Assembly.Rereading
import DualStack.Proofs.Memory.Truncation
