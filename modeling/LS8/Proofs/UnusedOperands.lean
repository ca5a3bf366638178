import LS8.Machine.Step
import LS8.Proofs.InstructionText
/-! Operand bytes that an operation does not use. They are fetched with every instruction and belong
to what follows it in memory. Instructions with the same operation and the same used operands are
carried out alike (`Instruction.execute_congr`) and are written and encoded alike, so all that is
left of an unused byte is its copy in the last instruction. -/

namespace LS8

namespace Instruction

variable {i j : Instruction}

/-- Carrying out an instruction reads its operation and the operands that the operation uses. The
cases are those of how many that are. -/
theorem execute_congr (hop : i.opcode = j.opcode) (hoperands : i.operands = j.operands)
    (refusal : UInt8 → Option String) (r : Registers) (m : Memory) :
    i.execute refusal r m = j.execute refusal r m := by
  obtain ⟨op, a, b⟩ := i
  obtain ⟨op', a', b'⟩ := j
  cases hop
  cases op
  case hlt | ret => rfl
  case ldi | add | mul | cmp =>
    obtain ⟨rfl, rfl⟩ : a = a' ∧ b = b' := by
      simpa [operands, Opcode.operandCount, Opcode.byte] using hoperands
    rfl
  case prn | push | pop | call | jmp | jeq | jne =>
    obtain rfl : a = a' := by
      simpa [operands, Opcode.operandCount, Opcode.byte] using hoperands
    rfl

end Instruction

namespace Machine

/-- What a step does once it has fetched an instruction. -/
def carryOut (refusal : UInt8 → Option String) (m : Machine) (i : Instruction) : Step :=
  match i.execute refusal m.regs m.mem with
  | .error f => ⟨.error f, m, none, []⟩
  | .ok e =>
    let worked := { m with regs := e.regs, mem := e.mem }
    match worked.proceed i.opcode e.next with
    | .error f => ⟨.error f, worked, e.printed, []⟩
    | .ok (moved, log) =>
      ⟨.ok i, { moved with cycles := m.cycles + 1, last := some i }, e.printed, log⟩

/-- Steps that differ at most in the instruction which they remember: both complete their own, or
both report the same fault and remember what was remembered before. -/
structure SameBut (m : Machine) (i j : Instruction) (s t : Step) : Prop where
  regs : s.machine.regs = t.machine.regs
  mem : s.machine.mem = t.machine.mem
  state : s.machine.state = t.machine.state
  cycles : s.machine.cycles = t.machine.cycles
  printed : s.printed = t.printed
  log : s.log = t.log
  outcome :
    (s.result = .ok i ∧ s.machine.last = some i ∧ t.result = .ok j ∧ t.machine.last = some j) ∨
    ∃ f, s.result = .error f ∧ s.machine.last = m.last ∧
      t.result = .error f ∧ t.machine.last = m.last

variable {m : Machine} {i j : Instruction} {refusal : UInt8 → Option String}

theorem step_eq_carryOut (hrun : m.state = .running) (hi : m.fetch = .ok i) : m.step refusal =
    { m.carryOut refusal i with log := .fetched m.view i :: (m.carryOut refusal i).log } := by
  simp only [step, hrun, hi, carryOut]
  cases i.execute refusal m.regs m.mem with
  | error f => rfl
  | ok e =>
    dsimp only
    generalize proceed _ i.opcode e.next = moved
    cases moved <;> rfl

theorem carryOut_congr (hop : i.opcode = j.opcode) (hoperands : i.operands = j.operands) :
    SameBut m i j (m.carryOut refusal i) (m.carryOut refusal j) := by
  rw [carryOut, carryOut, Instruction.execute_congr hop hoperands, hop]
  cases j.execute refusal m.regs m.mem with
  | error f => exact ⟨rfl, rfl, rfl, rfl, rfl, rfl, .inr ⟨f, rfl, rfl, rfl, rfl⟩⟩
  | ok e =>
    dsimp only
    cases proceed { m with regs := e.regs, mem := e.mem } j.opcode e.next with
    | error f => exact ⟨rfl, rfl, rfl, rfl, rfl, rfl, .inr ⟨f, rfl, rfl, rfl, rfl⟩⟩
    | ok moved => exact ⟨rfl, rfl, rfl, rfl, rfl, rfl, .inl ⟨rfl, rfl, rfl, rfl⟩⟩

end Machine

/-- Instructions with the same text have the same operation and used operands, and instructions that
have these in common do the same, whatever their other bytes are. -/
theorem unused_operands_are_inert :
    (∀ i j : Instruction,
      (i.text = j.text ↔ i.opcode = j.opcode ∧ i.operands = j.operands) ∧
      (i.encode = j.encode ↔ i.opcode = j.opcode ∧ i.operands = j.operands)) ∧
    ∀ (refusal : UInt8 → Option String) (m : Machine), m.state = .running →
      (∀ i, m.fetch = .ok i → m.step refusal =
        { m.carryOut refusal i with log := .fetched m.view i :: (m.carryOut refusal i).log }) ∧
      ∀ i j : Instruction, i.opcode = j.opcode → i.operands = j.operands →
        m.SameBut i j (m.carryOut refusal i) (m.carryOut refusal j) := by
  refine ⟨fun i j => ⟨Instruction.text_eq_iff, Instruction.encode_eq_iff⟩, fun refusal m hrun => ?_⟩
  exact ⟨fun i => Machine.step_eq_carryOut hrun, fun i j => Machine.carryOut_congr⟩

/-- A machine about to print its stack pointer, with one more byte behind the operand. -/
def Machine.printingFirst : Machine :=
  { powerOn with mem := Memory.blank.store 0 [0x47, 7, 0xAA] }

theorem printingFirst_unused_operand :
    Machine.printingFirst.state = .running ∧
    Machine.printingFirst.fetch = .ok ⟨.prn, 7, 0xAA⟩ ∧
    (Machine.printingFirst.step fun _ => none).printed = some 0xF4 ∧
    Machine.printingFirst.SameBut ⟨.prn, 7, 0xAA⟩ ⟨.prn, 7, 0⟩
      (Machine.printingFirst.carryOut (fun _ => none) ⟨.prn, 7, 0xAA⟩)
      (Machine.printingFirst.carryOut (fun _ => none) ⟨.prn, 7, 0⟩) ∧
    (⟨.prn, 7, 0xAA⟩ : Instruction).text = (⟨.prn, 7, 0⟩ : Instruction).text := by
  obtain ⟨hforms, hsteps⟩ := unused_operands_are_inert
  obtain ⟨hstep, hsame⟩ := hsteps (fun _ => none) Machine.printingFirst rfl
  have hfetch : Machine.printingFirst.fetch = .ok ⟨.prn, 7, 0xAA⟩ := by decide +kernel
  refine ⟨rfl, hfetch, ?_, hsame _ _ rfl rfl, (hforms _ _).1.2 ⟨rfl, rfl⟩⟩
  rw [hstep _ hfetch]
  decide +kernel

end LS8
