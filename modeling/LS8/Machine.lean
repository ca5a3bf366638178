import LS8.Instruction
import LS8.Event
import LS8.Fault
/-! The machine: registers, memory, whether it still runs, how many instructions it has completed
and which was the last. The count and the last instruction are kept for whoever watches; no
instruction reads them. For people who watch a machine there is a summary of it in one line, where
the memory is only counted and the braces belong to the text. -/

namespace LS8

inductive RunState where
  | running | halted
deriving DecidableEq, Repr

def RunState.name : RunState → String
  | running => "Running"
  | halted => "Halted"

structure Machine where
  regs : Registers
  mem : Memory
  state : RunState
  cycles : UInt64
  last : Option Instruction
deriving DecidableEq, Repr

namespace Machine

def powerOn : Machine :=
  ⟨.powerOn, .blank, .running, 0, none⟩

/-- Stores a program at address zero. -/
def load (m : Machine) (program : List UInt8) : Except Memory.Overrun (Machine × Event) := do
  let mem ← m.mem.load 0 program
  return ({ m with mem }, .loaded program.length)

/-- The instruction at the program counter. Both bytes after the opcode are read whatever the
operation needs; their addresses wrap at the end of memory. -/
def fetch (m : Machine) : Except Fault Instruction :=
  let pc := m.regs.pc
  let opcode := m.mem.read pc
  (Instruction.decode opcode (m.mem.read (pc + 1)) (m.mem.read (pc + 2))).mapError
    fun _ => .unknownOpcode opcode pc

def view (m : Machine) : View :=
  let pc := m.regs.pc
  ⟨pc, m.mem.read pc, m.mem.read (pc + 1), m.mem.read (pc + 2), m.regs.gp⟩

def isRunning (m : Machine) : Bool :=
  m.state = .running

def isHalted (m : Machine) : Bool :=
  m.state = .halted

end Machine

def Registers.summary (r : Registers) : String :=
  let gp := ", ".intercalate (r.gp.toList.map fun v => toString v.toNat)
  "Registers \x7b gp: [" ++ gp ++ "], pc: " ++ toString r.pc.toNat ++ ", fl: " ++ r.fl.text ++
    " \x7d"

def Memory.summary (m : Memory) : String :=
  let used := m.toList.countP (· != 0)
  "Memory \x7b non_zero_cells: " ++ toString used ++ ", total_cells: " ++ toString Memory.size ++
    " \x7d"

def Machine.summary (m : Machine) : String :=
  "Cpu \x7b state: " ++ m.state.name ++ ", cycles: " ++ toString m.cycles.toNat ++ ", regs: " ++
    m.regs.summary ++ " \x7d"

end LS8
