import LS8.Opcode
import LS8.Registers
/-! The arithmetic unit. Sums and products are modulo 256 and replace the first operand, a
comparison writes the flags only. Both registers are read before anything is written. -/

namespace LS8

inductive AluFault where
  | unsupported (op : Opcode)
  | register (e : NoSuchRegister)
deriving DecidableEq, Repr

def AluFault.message : AluFault → String
  | unsupported op => s!"unsupported ALU operation {op.mnemonic}"
  | register e => e.message

namespace Alu

def add (a b : UInt8) : UInt8 := a + b

def mul (a b : UInt8) : UInt8 := a * b

def execute (op : Opcode) (r : Registers) (i j : UInt8) : Except AluFault Registers := do
  unless op.isAlu do
    throw (.unsupported op)
  let a ← (r.get i).mapError .register
  let b ← (r.get j).mapError .register
  match op with
  | .add => (r.set i (add a b)).mapError .register
  | .mul => (r.set i (mul a b)).mapError .register
  | .cmp => return { r with fl := .ofComparison a b }
  | _ => throw (.unsupported op)

end Alu

end LS8
