import LS8.Instruction
import LS8.Log
import LS8.Numeral
/-! What the machine reports while it works, and each report as a log record. -/

namespace LS8

structure View where
  pc : UInt8
  opcode : UInt8
  a : UInt8
  b : UInt8
  gp : Vector UInt8 8
deriving DecidableEq, Repr

def View.text (v : View) : String :=
  let byte := fun (b : UInt8) => Numeral.hexUpper b.toNat
  let gp := " ".intercalate (v.gp.toList.map byte)
  s!"TRACE: {byte v.pc} | {byte v.opcode} {byte v.a} {byte v.b} | {gp}"

inductive Event where
  /-- A program of this many bytes was stored at address zero. -/
  | loaded (size : Nat)
  /-- This instruction is about to be carried out on the machine in view. -/
  | fetched (view : View) (instr : Instruction)
  /-- The operation set the program counter to the target. -/
  | jumped (op : Opcode) (target : UInt8)
  /-- The machine halted at `pc`; `cycles` counts the halting instruction too. -/
  | halted (pc : UInt8) (cycles : UInt64)
  /-- The stop button was found pressed before the instruction at `pc` was fetched. -/
  | stopped (pc : UInt8)
deriving DecidableEq, Repr

namespace Event

def level : Event → Level
  | loaded _ => .debug
  | fetched _ _ => .trace
  | jumped _ _ => .trace
  | halted _ _ => .info
  | stopped _ => .info

def text : Event → String
  | loaded size => s!"loaded {size} bytes at 0x00"
  | fetched view instr => s!"{view.text} {instr.text}"
  | jumped op target => s!"{op.mnemonic} jumps to 0x{Numeral.hex target}"
  | halted pc cycles => s!"halted at PC=0x{Numeral.hex pc} after {cycles.toNat} cycles"
  | stopped pc => s!"stop requested at PC=0x{Numeral.hex pc}"

def toRecord (e : Event) : LogRecord :=
  ⟨e.level, .engine, e.text⟩

end Event

end LS8
