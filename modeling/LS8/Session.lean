import LS8.Image
import LS8.Machine.Run
import LS8.Saved
/-! Sessions: calls on a machine and on its parts, one after another. Each call has a result and
leaves a machine, and an answer tells all that can be seen of both. A call that fails is answered
like any other and does not end the session. -/

namespace LS8.Session

inductive Request where
  /-- Nothing but to see the machine. -/
  | look
  | reset
  | load (program : List UInt8)
  | loadAt (start : UInt8) (program : List UInt8)
  /-- Reads an image and stores its bytes at address zero. -/
  | image (file : List UInt8)
  | fetch
  | step (c : Console)
  | steps (c : Console) (count : Nat)
  | run (c : Console)
  | runLimited (c : Console) (limit : UInt64)
  | runUntil (c : Console) (limit : Option UInt64)
  | traceLine
  | status
  | debug
  | getRegister (i : UInt8)
  | setRegister (i v : UInt8)
  | checkRegister (i : UInt8)
  | sp
  | setSp (v : UInt8)
  | resetRegisters
  | setPc (v : UInt8)
  | setCycles (n : UInt64)
  | setState (s : RunState)
  | setFlags (f : Flags)
  | flags
  | read (a : UInt8)
  | write (a v : UInt8)
  | clear
  | dump (start : UInt8) (count : Nat)
  | push (v : UInt8)
  | pop
  | pushRegister (i : UInt8)
  | alu (op : Opcode) (i j : UInt8)
  | save
  | restore (saved : Json)

inductive Failure where
  | fault (f : Fault)
  | register (e : NoSuchRegister)
  | stack (f : StackFault)
  | alu (f : AluFault)
  | overrun (e : Memory.Overrun)
  | image (f : Image.Fault)
  | refusal (r : Refusal)

inductive Result where
  | done
  | failed (f : Failure)
  | byte (b : UInt8)
  | count (n : Nat)
  | instruction (i : Instruction)
  /-- The instructions of several steps, each with the registers after it, and the fault that ended
  them before their time. -/
  | steps (shown : List (Instruction × Registers)) (fault : Option Fault)
  | texts (lines : List String)
  | status (halted running : Bool) (last : Option Instruction)
  | flags (f : Flags)
  | cells (cells : List (UInt8 × UInt8))
  | saved (j : Json)

/-- What came of a call: its result, and the machine after it with what was printed and reported
meanwhile, as a run. -/
structure Outcome where
  run : Run
  result : Result

namespace Outcome

def quiet (m : Machine) (result : Result) : Outcome :=
  ⟨.start m, result⟩

/-- A call that has a value or else changes nothing. -/
def attempt {ε α : Type} (m : Machine) (failure : ε → Failure) (use : α → Machine × Result) :
    Except ε α → Outcome
  | .error e => quiet m (.failed (failure e))
  | .ok a => quiet (use a).1 (use a).2

def loaded (m : Machine) (result : Result) : Except Memory.Overrun (Machine × Event) → Outcome
  | .error e => quiet m (.failed (.overrun e))
  | .ok (m, event) => ⟨{ Run.start m with log := #[event] }, result⟩

def ofRun (r : Run) : Outcome :=
  ⟨r, match r.result with
    | .ok n => .count n
    | .error f => .failed (.fault f)⟩

/-- Up to `count` steps that follow a run, given what the steps so far have shown, last first. -/
def ofSteps (c : Console) : Nat → Run → List (Instruction × Registers) → Outcome
  | 0, r, shown => ⟨r, .steps shown.reverse none⟩
  | count + 1, r, shown =>
    let s := r.machine.step (c.refusal r.printed)
    match s.result with
    | .ok i => ofSteps c count (r.absorb s) ((i, s.machine.regs) :: shown)
    | .error f => ⟨r.absorb s, .steps shown.reverse (some f)⟩

end Outcome

open Outcome in
def perform (m : Machine) : Request → Outcome
  | .look => quiet m .done
  | .reset => quiet .powerOn .done
  | .load program => loaded m .done (m.load program)
  | .loadAt start program =>
    attempt m .overrun (fun mem => ({ m with mem }, .done)) (m.mem.load start program)
  | .image file =>
    match Image.read file with
    | .error f => quiet m (.failed (.image f))
    | .ok i => loaded m (.count i.size) (m.load i.bytes)
  | .fetch => attempt m .fault (fun i => (m, .instruction i)) m.fetch
  | .step c =>
    let s := m.step (c.refusal #[])
    ⟨(Run.start m).absorb s, match s.result with
      | .ok i => .instruction i
      | .error f => .failed (.fault f)⟩
  | .steps c count => ofSteps c count (.start m) []
  | .run c => ofRun (m.run c)
  | .runLimited c limit => ofRun (m.runLimited c limit)
  | .runUntil c limit => ofRun (m.runUntil c limit)
  | .traceLine => quiet m (.texts [m.view.text])
  | .status => quiet m (.status m.isHalted m.isRunning m.last)
  | .debug => quiet m (.texts [m.summary, m.mem.summary, m.regs.summary])
  | .getRegister i => attempt m .register (fun v => (m, .byte v)) (m.regs.get i)
  | .setRegister i v =>
    attempt m .register (fun regs => ({ m with regs }, .done)) (m.regs.set i v)
  | .checkRegister i => attempt m .register (fun _ => (m, .done)) (Registers.check i)
  | .sp => quiet m (.byte m.regs.sp)
  | .setSp v => quiet { m with regs := m.regs.setSp v } .done
  | .resetRegisters => quiet { m with regs := .powerOn } .done
  | .setPc v => quiet { m with regs := { m.regs with pc := v } } .done
  | .setCycles n => quiet { m with cycles := n } .done
  | .setState s => quiet { m with state := s } .done
  | .setFlags f => quiet { m with regs := { m.regs with fl := f } } .done
  | .flags => quiet m (.flags m.regs.fl)
  | .read a => quiet m (.byte (m.mem.read a))
  | .write a v => quiet { m with mem := m.mem.write a v } .done
  | .clear => quiet { m with mem := .blank } .done
  | .dump start count => quiet m (.cells (m.mem.dump start count))
  | .push v =>
    attempt m .stack (fun (regs, mem) => ({ m with regs, mem }, .done)) (Stack.push m.regs m.mem v)
  | .pop =>
    attempt m .stack (fun (v, regs) => ({ m with regs }, .byte v)) (Stack.pop m.regs m.mem)
  | .pushRegister i =>
    attempt m .stack (fun (regs, mem) => ({ m with regs, mem }, .done))
      (Stack.pushRegister m.regs m.mem i)
  | .alu op i j => attempt m .alu (fun regs => ({ m with regs }, .done)) (Alu.execute op m.regs i j)
  | .save => quiet m (.saved m.toJson)
  | .restore saved => attempt m .refusal (fun m => (m, .done)) (Machine.ofJson saved)

/-- What is seen after a call. The last instruction is shown by its text and the memory by the cells
that differ from before. -/
structure Answer where
  result : Result
  regs : Registers
  state : RunState
  cycles : UInt64
  last : Option String
  output : String
  changes : List (UInt8 × UInt8)
  log : List LogRecord

def changes (old new : Memory) : List (UInt8 × UInt8) :=
  (new.dump 0 Memory.size).filter fun (a, v) => old.read a ≠ v

def answer (before : Machine) (o : Outcome) : Answer :=
  let m := o.run.machine
  ⟨o.result, m.regs, m.state, m.cycles, m.last.map Instruction.text, o.run.output,
    changes before.mem m.mem, o.run.log.toList.map Event.toRecord⟩

def after (m : Machine) : List Request → Machine
  | [] => m
  | r :: rs => after (perform m r).run.machine rs

def answers (m : Machine) : List Request → List Answer
  | [] => []
  | r :: rs => answer m (perform m r) :: answers (perform m r).run.machine rs

end LS8.Session
