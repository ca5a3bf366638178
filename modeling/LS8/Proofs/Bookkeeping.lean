import Mathlib.Data.List.Induction
import LS8.Proofs.Attempts
import LS8.Session
/-! What a machine knows of its own past. It counts the steps that completed, remembers the last of
their instructions, and has halted exactly if that one told it to (`Machine.Keeps`). A step that is
tried keeps the books whether it completes or fails, so they are right after any calls that step or
run the machine, as long as the counter has room. A machine that has halted refuses every further
step, so it stays as it is. -/

namespace LS8

namespace Machine

/-- The books of a machine agree with the instructions that have been completed so far. -/
structure Keeps (m : Machine) (done : List Instruction) : Prop where
  cycles : m.cycles.toNat = done.length
  last : m.last = done.getLast?
  halted : m.state = .halted ↔ ∃ i, m.last = some i ∧ i.opcode = .hlt
  cell : m.state = .halted → m.mem.read m.regs.pc = Opcode.hlt.byte

variable {m : Machine} {i : Instruction} {done : List Instruction} {refusal : UInt8 → Option String}

theorem Keeps.start (mem : Memory) : Keeps { powerOn with mem } [] where
  cycles := rfl
  last := rfl
  halted := ⟨nofun, nofun⟩
  cell := nofun

/-- Registers and memory of a machine that runs are not in its books. -/
theorem Keeps.worked (h : m.Keeps done) (hrun : m.state = .running) : (m.worked i).Keeps done where
  cycles := h.cycles
  last := h.last
  halted := h.halted
  cell := fun hs => by
    have hstate : (m.worked i).state = m.state := rfl
    rw [hstate, hrun] at hs
    cases hs

theorem Keeps.completed (h : m.Keeps done) (hi : m.fetch = .ok i)
    (hroom : done.length < maxCycles) : (m.completed i).Keeps (done ++ [i]) where
  cycles := by
    rw [cycles_completed (by rw [h.cycles]; exact hroom), h.cycles, List.length_append]
    rfl
  last := by simp [Machine.completed]
  halted := by
    have hstate : (m.completed i).state = if i.opcode = .hlt then .halted else .running := rfl
    have hlast : (m.completed i).last = some i := rfl
    rw [hstate, hlast]
    by_cases hop : i.opcode = .hlt <;> simp [hop]
  cell := fun hs => by
    have hop : i.opcode = .hlt := by
      by_contra hne
      simp [Machine.completed, hne] at hs
    have hpc : i.pcAfter m.regs m.mem = m.regs.pc := i.pcAfter_of_hlt _ _ hop
    have hmem : i.memAfter m.regs m.mem = m.mem := Instruction.memAfter_of_ne_push (by simp [hop])
    simp only [Machine.completed, hpc, hmem]
    rw [← hop, (fetch_eq_ok_iff.1 hi).1]

/-- A step that is tried keeps the books. -/
theorem Keeps.step (h : m.Keeps done)
    (hroom : (done ++ (m.step refusal).result.toOption.toList).length ≤ maxCycles) :
    (m.step refusal).machine.Keeps (done ++ (m.step refusal).result.toOption.toList) := by
  rcases step_tries refusal m with ⟨-, f, hs⟩ |
    ⟨i, htry, ⟨f, -, hs⟩ | ⟨-, f, -, hs⟩ | ⟨-, -, hs⟩⟩
  all_goals rw [hs] at hroom ⊢
  · simpa [Except.toOption] using h
  · simpa [Except.toOption] using h
  · simpa [Except.toOption] using h.worked (tries?_eq_some_iff.1 htry).1
  · have hone : done.length + 1 ≤ maxCycles := by simpa [Except.toOption] using hroom
    simpa [Except.toOption] using h.completed (tries?_eq_some_iff.1 htry).2 hone

/-- By induction on the steps, the books are right after each of them. -/
theorem Keeps.attempt (h : m.Keeps done) (refusals : List (UInt8 → Option String))
    (hroom : (done ++ (m.attempts refusals).filterMap Attempt.completed?).length ≤ maxCycles) :
    (m.attempt refusals).Keeps (done ++ (m.attempts refusals).filterMap Attempt.completed?) := by
  induction refusals using List.reverseRecOn with
  | nil => simpa [attempts, Machine.attempt] using h
  | append_singleton refusals refusal ih =>
    have hone : [(⟨m.attempt refusals, refusal⟩ : Attempt)].filterMap Attempt.completed? =
        ((m.attempt refusals).step refusal).result.toOption.toList := by
      cases hc : ((m.attempt refusals).step refusal).result.toOption <;>
        simp [Attempt.completed?, Attempt.step, hc]
    rw [attempts_concat, List.filterMap_append, hone, ← List.append_assoc] at hroom ⊢
    rw [attempt_concat]
    refine (ih ?_).step hroom
    exact Nat.le_trans (by simp) hroom

end Machine

namespace Session

def Request.Runs : Request → Prop
  | .step _ | .run _ | .runLimited _ _ | .runUntil _ _ => True
  | _ => False

def Request.printers (m : Machine) : Request → List (UInt8 → Option String)
  | .step c => [c.refusal #[]]
  | .run c => (Run.start m).printers c.unstoppable (Machine.maxCycles - m.cycles.toNat + 1)
  | .runLimited c limit =>
    (Run.start m).printers c.unstoppable (Machine.allowance m.cycles (some limit))
  | .runUntil c limit => (Run.start m).printers c (Machine.allowance m.cycles limit)
  | _ => []

def printers (m : Machine) : List Request → List (UInt8 → Option String)
  | [] => []
  | r :: rs => r.printers m ++ printers (perform m r).run.machine rs

/-- What a call results in where no step can be taken. -/
def Request.idle : Request → Result
  | .step _ => .failed (.fault .notRunning)
  | _ => .count 0

variable {m : Machine} {r : Request} {rs : List Request}

theorem machine_perform (h : r.Runs) :
    (perform m r).run.machine = m.attempt (r.printers m) := by
  cases r
  case step c => exact Run.machine_absorb _ _
  case run c => exact Run.machine_extend _ _ _
  case runLimited c limit => exact Run.machine_extend _ _ _
  case runUntil c limit => exact Run.machine_extend _ _ _
  all_goals cases h

/-- By induction on the calls, they do nothing but try their steps. -/
theorem after_eq_attempt (h : ∀ r ∈ rs, r.Runs) : after m rs = m.attempt (printers m rs) := by
  induction rs generalizing m with
  | nil => rfl
  | cons r rs ih =>
    obtain ⟨hr, hrs⟩ := List.forall_mem_cons.1 h
    rw [after, printers, Machine.attempt_append, ← machine_perform hr]
    exact ih hrs

/-- A call on a machine that has halted gives what it gives where no step can be taken. -/
theorem perform_of_halted (hs : m.state = .halted) (h : r.Runs) :
    (perform m r).run.machine = m ∧ (perform m r).run.printed = #[] ∧
      (perform m r).result = r.idle := by
  have hover : (Run.start m).isOver := by simp [Run.isOver, Run.start, Machine.isHalted, hs]
  cases r
  case step c =>
    have hstep : m.step (c.refusal #[]) = ⟨.error .notRunning, m, none, []⟩ :=
      Machine.step_of_halted hs
    simp only [perform, hstep]
    exact ⟨rfl, rfl, rfl⟩
  case run c =>
    simp only [perform, Machine.run, Run.extend_of_isOver hover]
    exact ⟨rfl, rfl, rfl⟩
  case runLimited c limit =>
    simp only [perform, Machine.runLimited, Machine.runUntil, Run.extend_of_isOver hover]
    exact ⟨rfl, rfl, rfl⟩
  case runUntil c limit =>
    simp only [perform, Machine.runUntil, Run.extend_of_isOver hover]
    exact ⟨rfl, rfl, rfl⟩
  all_goals cases h

theorem after_of_halted (hs : m.state = .halted) (h : ∀ r ∈ rs, r.Runs) : after m rs = m := by
  induction rs with
  | nil => rfl
  | cons r rs ih =>
    obtain ⟨hr, hrs⟩ := List.forall_mem_cons.1 h
    rw [after, (perform_of_halted hs hr).1]
    exact ih hrs

theorem machine_perform_load (program : List UInt8) :
    ∃ mem, after .powerOn [.load program] = { Machine.powerOn with mem } := by
  cases hload : Memory.load .blank 0 program with
  | ok mem =>
    refine ⟨mem, ?_⟩
    simp only [after, perform, Machine.load, Machine.powerOn, hload]
    rfl
  | error e =>
    refine ⟨.blank, ?_⟩
    simp only [after, perform, Machine.load, Machine.powerOn, hload]
    rfl

end Session

open Session in
/-- The books of every machine that calls lead to are right, and one that has halted stays as it
is. -/
theorem reached_keeps_books (program : List UInt8) (calls : List Request)
    (hcalls : ∀ r ∈ calls, r.Runs) :
    let start := after .powerOn [.load program]
    let done := (start.attempts (printers start calls)).filterMap Attempt.completed?
    let m := after .powerOn (.load program :: calls)
    done.length ≤ Machine.maxCycles →
      m = start.attempt (printers start calls) ∧
      m.Keeps done ∧ (m.last = none ↔ m.cycles = 0) ∧ m.mem.toList.length = 256 ∧
      (m.state = .halted → ∀ later : List Request, (∀ r ∈ later, r.Runs) →
        after m later = m ∧ ∀ r : Request, r.Runs →
          (perform m r).run.machine = m ∧ (perform m r).run.output = "" ∧
            (perform m r).result = r.idle) := by
  intro start done m hroom
  have hm : m = start.attempt (printers start calls) := after_eq_attempt hcalls
  have hkeeps : m.Keeps done := by
    obtain ⟨mem, hstart⟩ : ∃ mem, start = { Machine.powerOn with mem } :=
      machine_perform_load program
    have hbegin : start.Keeps [] := hstart ▸ Machine.Keeps.start mem
    rw [hm]
    exact hbegin.attempt _ hroom
  refine ⟨hm, hkeeps, ?_, m.mem.length_toList, fun hs later hlater => ?_⟩
  · rw [hkeeps.last, List.getLast?_eq_none_iff, ← UInt64.toNat_inj, hkeeps.cycles]
    exact List.length_eq_zero_iff.symm
  · refine ⟨after_of_halted hs hlater, fun r hr => ?_⟩
    obtain ⟨hmachine, hprinted, hresult⟩ := perform_of_halted hs hr
    refine ⟨hmachine, ?_, hresult⟩
    rw [Run.output, hprinted]
    rfl

/-- A load, a line and a halt. -/
def printingProgram : List UInt8 :=
  [0x82, 0, 8, 0x47, 0, 0x01]

open Session in
/-- A run whose line is refused, one that prints it and halts, and a step too many. -/
def printingCalls : List Request :=
  [.runUntil (Console.accepting.closingAfter 0 "sink closed") none, .run .accepting,
    .step .accepting]

open Session in
theorem printing_keeps_books :
    (∀ r ∈ printingCalls, r.Runs) ∧
    let start := after .powerOn [.load printingProgram]
    let m := after .powerOn (.load printingProgram :: printingCalls)
    (start.attempts (printers start printingCalls)).filterMap Attempt.completed? =
      [⟨.ldi, 0, 8⟩, ⟨.prn, 0, 1⟩, ⟨.hlt, 0, 0⟩] ∧
    m.Keeps [⟨.ldi, 0, 8⟩, ⟨.prn, 0, 1⟩, ⟨.hlt, 0, 0⟩] := by
  have hcalls : ∀ r ∈ printingCalls, r.Runs := by
    intro r hr
    simp only [printingCalls, List.mem_cons, List.not_mem_nil, or_false] at hr
    rcases hr with rfl | rfl | rfl <;> trivial
  have hdone : ((after .powerOn [.load printingProgram]).attempts
      (printers (after .powerOn [.load printingProgram]) printingCalls)).filterMap
        Attempt.completed? = [⟨.ldi, 0, 8⟩, ⟨.prn, 0, 1⟩, ⟨.hlt, 0, 0⟩] := by
    decide +kernel
  have hkeeps := (reached_keeps_books printingProgram printingCalls hcalls (by
    rw [hdone]
    decide)).2.1
  rw [hdone] at hkeeps
  exact ⟨hcalls, hdone, hkeeps⟩

end LS8
