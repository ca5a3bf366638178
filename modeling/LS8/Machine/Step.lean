import LS8.Machine
/-! One step: fetch, carry out, move the program counter. An instruction never moves the program
counter itself. It says what it wants done with it (`Next`), and the step does so afterwards, which
is why an instruction that would run off the end of memory keeps its other effects. A step that
fails counts no cycle and leaves the last instruction as it was. -/

namespace LS8

inductive Next where
  /-- Go on past an instruction of this width. -/
  | advance (width : Nat)
  | jump (target : UInt8)
  | halt
deriving DecidableEq, Repr

/-- What an instruction does: the registers and the memory after it, the value it prints if it
prints one, and where the program goes on. -/
structure Effect where
  regs : Registers
  mem : Memory
  printed : Option UInt8
  next : Next
deriving DecidableEq, Repr

namespace Instruction

/-- Carries out an instruction. The printer answers each value with the reason why it refuses the
line, or with none if it takes it. -/
def execute (refusal : UInt8 → Option String) (i : Instruction) (r : Registers) (m : Memory) :
    Except Fault Effect := do
  let width := i.opcode.width
  match i.opcode with
  | .hlt => return ⟨r, m, none, .halt⟩
  | .ldi =>
    let r ← (r.set i.a i.b).mapError .register
    return ⟨r, m, none, .advance width⟩
  | .prn =>
    let v ← (r.get i.a).mapError .register
    match refusal v with
    | some reason => throw (.output reason)
    | none => return ⟨r, m, some v, .advance width⟩
  | .add | .mul | .cmp =>
    let r ← (Alu.execute i.opcode r i.a i.b).mapError .ofAlu
    return ⟨r, m, none, .advance width⟩
  | .push =>
    let (r, m) ← (Stack.pushRegister r m i.a).mapError .ofStack
    return ⟨r, m, none, .advance width⟩
  | .pop =>
    (Registers.check i.a).mapError .register
    let (v, r) ← (Stack.pop r m).mapError .ofStack
    let r ← (r.set i.a v).mapError .register
    return ⟨r, m, none, .advance width⟩
  | .call =>
    let target ← (r.get i.a).mapError .register
    if r.pc.toNat + width < 256 then
      let (r, m) ← (Stack.push r m (r.pc + UInt8.ofNat width)).mapError .ofStack
      return ⟨r, m, none, .jump target⟩
    else
      throw (.pcOutOfRange r.pc width)
  | .ret =>
    let (target, r) ← (Stack.pop r m).mapError .ofStack
    return ⟨r, m, none, .jump target⟩
  | .jmp =>
    let target ← (r.get i.a).mapError .register
    return ⟨r, m, none, .jump target⟩
  | .jeq =>
    let target ← (r.get i.a).mapError .register
    return ⟨r, m, none, if r.fl.isEqual then .jump target else .advance width⟩
  | .jne =>
    let target ← (r.get i.a).mapError .register
    return ⟨r, m, none, if r.fl.isEqual then .advance width else .jump target⟩

end Instruction

/-- What came of a step: the instruction that was completed or the fault, the machine afterwards,
the value printed and the events reported on the way. -/
structure Step where
  result : Except Fault Instruction
  machine : Machine
  printed : Option UInt8
  log : List Event

namespace Machine

def proceed (m : Machine) (op : Opcode) : Next → Except Fault (Machine × List Event)
  | .advance width =>
    let pc := m.regs.pc
    if pc.toNat + width < 256 then
      .ok ({ m with regs := { m.regs with pc := pc + UInt8.ofNat width } }, [])
    else
      .error (.pcOutOfRange pc width)
  | .jump target => .ok ({ m with regs := { m.regs with pc := target } }, [.jumped op target])
  | .halt => .ok ({ m with state := .halted }, [.halted m.regs.pc (m.cycles + 1)])

def step (refusal : UInt8 → Option String) (m : Machine) : Step :=
  match m.state with
  | .halted => ⟨.error .notRunning, m, none, []⟩
  | .running =>
    match m.fetch with
    | .error f => ⟨.error f, m, none, []⟩
    | .ok i =>
      let seen := Event.fetched m.view i
      match i.execute refusal m.regs m.mem with
      | .error f => ⟨.error f, m, none, [seen]⟩
      | .ok e =>
        let worked := { m with regs := e.regs, mem := e.mem }
        match worked.proceed i.opcode e.next with
        | .error f => ⟨.error f, worked, e.printed, [seen]⟩
        | .ok (moved, log) =>
          ⟨.ok i, { moved with cycles := m.cycles + 1, last := some i }, e.printed, seen :: log⟩

end Machine

end LS8
