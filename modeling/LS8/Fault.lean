import LS8.Numeral
import LS8.Alu
import LS8.Stack
/-! Why a step fails. Faults of the arithmetic unit and of the stack become faults of the machine; a
register that does not exist is the same fault wherever it is met. -/

namespace LS8

inductive Fault where
  /-- The machine has halted. -/
  | notRunning
  | unknownOpcode (opcode pc : UInt8)
  /-- Going on past the instruction at `pc`, `width` bytes wide, would leave memory. -/
  | pcOutOfRange (pc : UInt8) (width : Nat)
  | register (e : NoSuchRegister)
  | stackOverflow
  | stackUnderflow
  | unsupported (op : Opcode)
  /-- The printer refused a line, for this reason. -/
  | output (reason : String)
deriving DecidableEq, Repr

namespace Fault

def ofStack : StackFault → Fault
  | .overflow => stackOverflow
  | .underflow => stackUnderflow
  | .register e => register e

def ofAlu : AluFault → Fault
  | .unsupported op => unsupported op
  | .register e => register e

def message : Fault → String
  | notRunning => "CPU not running: Halted"
  | unknownOpcode opcode pc =>
    s!"unknown opcode 0b{Numeral.binary opcode} at PC=0x{Numeral.hex pc}"
  | pcOutOfRange pc width => s!"PC would leave memory advancing {width} from 0x{Numeral.hex pc}"
  | register e => s!"register error: {e.message}"
  | stackOverflow => s!"stack error: {StackFault.overflow.message}"
  | stackUnderflow => s!"stack error: {StackFault.underflow.message}"
  | unsupported op => s!"ALU error: {(AluFault.unsupported op).message}"
  | output reason => s!"output error: {reason}"

end Fault

end LS8
