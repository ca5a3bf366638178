import LS8.Machine.Run
import LS8.Proofs.InstructionTable
/-! What comes of a step. `complaint` is the first fault that applies, in the order in which a step
finds them, and `Ready` says of the instruction at the program counter that none does. A step
succeeds exactly on a ready machine and leaves the machine of the instruction table; otherwise it
reports the complaint and leaves the machine alone, but for an instruction that has been carried out
and cannot go on (`worked`). `step_cases` is the only place where a step is taken apart. -/

namespace LS8

theorem Run.machine_absorb (r : Run) (s : Step) : (r.absorb s).machine = s.machine := by
  unfold absorb
  cases s.result <;> rfl

theorem Run.printed_absorb (r : Run) (s : Step) :
    (r.absorb s).printed = r.printed ++ s.printed.toList := by
  unfold absorb
  cases s.result <;> rfl

theorem Run.log_absorb (r : Run) (s : Step) :
    (r.absorb s).log.toList = r.log.toList ++ s.log := by
  unfold absorb
  cases s.result <;> exact Array.toList_appendList

theorem Run.output_absorb (r : Run) (s : Step) : (r.absorb s).output =
    r.output ++ s.printed.elim "" fun v => toString v.toNat ++ "\n" := by
  rw [output, output, printed_absorb]
  cases s.printed with
  | none => simp
  | some v =>
    have hn : toString "\n" = "\n" := rfl
    simp [hn, ← String.append_assoc]

theorem Run.result_absorb {r : Run} (h : r.ending = none) (s : Step) :
    (r.absorb s).result = s.result.map fun _ => r.count + 1 := by
  unfold absorb result
  cases s.result with
  | ok i => simp only [h]; rfl
  | error f => rfl

namespace Instruction

open Registers

variable (i : Instruction) (r : Registers) (m : Memory)

@[simp] theorem pc_regsAfter : (i.regsAfter r m).pc = r.pc := by
  obtain ⟨op, a, b⟩ := i
  cases op
  case pop =>
    simp only [regsAfter]
    split <;> simp only [pc_put]
  all_goals rfl

theorem pcAfter_of_fallsThrough (h : i.fallsThrough r.fl) :
    i.pcAfter r m = r.pc + .ofNat i.opcode.size := by
  obtain ⟨op, a, b⟩ := i
  cases op
  case hlt | call | ret | jmp => cases h
  case jeq =>
    have he : r.fl.isEqual = false := by simpa [fallsThrough] using h
    simp only [pcAfter, he]
    rfl
  case jne =>
    have he : r.fl.isEqual = true := h
    simp only [pcAfter, he]
    rfl
  all_goals rfl

variable {i r}

theorem runsOff_eq_none_iff :
    i.runsOff r = none ↔ (i.fallsThrough r.fl → r.pc.toNat + i.opcode.size < 256) := by
  simp [runsOff]

theorem runsOff_eq_some_iff {f : Fault} : i.runsOff r = some f ↔
    (i.fallsThrough r.fl ∧ 256 ≤ r.pc.toNat + i.opcode.size) ∧
      f = .pcOutOfRange r.pc i.opcode.size := by
  unfold runsOff
  constructor
  · intro h
    split at h <;> cases h
    next hc => exact ⟨hc, rfl⟩
  · rintro ⟨hc, rfl⟩
    exact if_pos hc

variable (i r)

theorem next_of_fallsThrough (h : i.fallsThrough r.fl) :
    i.next r m = .advance i.opcode.size := by
  have hn : i.opcode ≠ .hlt := fun e => by simp [fallsThrough, e] at h
  simp only [next, if_neg hn, if_pos h]

theorem pcAfter_of_hlt (h : i.opcode = .hlt) : i.pcAfter r m = r.pc := by
  simp [pcAfter, h]

/-- What an instruction needs: registers that exist, room on the stack in the direction it goes, and
memory after it unless it jumps or halts. A call needs it too, for its return address. -/
structure Ready : Prop where
  registers : ∀ x ∈ i.registerOperands, x.toNat < 8
  push : i.opcode = .push ∨ i.opcode = .call → 1 ≤ (r.value 7).toNat
  pop : i.opcode = .pop ∨ i.opcode = .ret → (r.value 7).toNat ≤ 254
  room : i.opcode = .call ∨ i.fallsThrough r.fl → r.pc.toNat + i.opcode.size ≤ 255

variable {i r} {refusal : UInt8 → Option String}

theorem noReturn_eq_none_iff :
    i.noReturn r = none ↔ (i.opcode = .call → r.pc.toNat + 2 ≤ 255) := by
  by_cases h : i.opcode = .call
  · simp only [noReturn_of_call h, h, forall_const, ite_eq_left_iff, reduceCtorEq, imp_false]
    omega
  · simp only [noReturn_of_ne h, h, false_imp_iff]

theorem stackLimit_eq_none_iff : i.stackLimit r = none ↔
    (i.opcode = .push ∨ i.opcode = .call → 1 ≤ (r.value 7).toNat) ∧
      (i.opcode = .pop ∨ i.opcode = .ret → (r.value 7).toNat ≤ 254) := by
  rw [one_le_toNat_iff, toNat_le_iff]
  by_cases hp : i.opcode = .push ∨ i.opcode = .call
  · simp [stackLimit_of_push hp, hp, not_pop_of_push hp]
  · by_cases hq : i.opcode = .pop ∨ i.opcode = .ret
    · simp [stackLimit_of_pop hq, hp, hq]
    · simp [stackLimit, hp, hq]

theorem refused_eq_none_iff : i.refused r refusal = none ↔
    (i.opcode = .prn → refusal (r.value i.a) = none) := by
  by_cases h : i.opcode = .prn <;> simp [refused, printed, h]

theorem obstacle_eq_none_iff : i.obstacle r refusal = none ↔
    i.badRegister = none ∧ i.noReturn r = none ∧ i.stackLimit r = none ∧
      i.refused r refusal = none := by
  simp only [obstacle, Option.or_eq_none_iff]

/-- The faults that keep an instruction from being carried out. -/
theorem obstacle_cases {f : Fault} (h : i.obstacle r refusal = some f) :
    (∃ e, f = .register e) ∨ (i.opcode = .call ∧ f = .pcOutOfRange r.pc 2) ∨
      f = .stackOverflow ∨ f = .stackUnderflow ∨ ∃ reason, f = .output reason := by
  simp only [obstacle, Option.or_eq_some_iff] at h
  rcases h with h | ⟨-, h | ⟨-, h | ⟨-, h⟩⟩⟩
  · obtain ⟨x, -, rfl⟩ := Option.map_eq_some_iff.1 h
    exact .inl ⟨_, rfl⟩
  · unfold noReturn at h
    split at h <;> cases h
    next hc => exact .inr (.inl ⟨hc.1, rfl⟩)
  · unfold stackLimit at h
    split at h
    · cases h
      exact .inr (.inr (.inl rfl))
    · split at h <;> cases h
      exact .inr (.inr (.inr (.inl rfl)))
  · obtain ⟨v, -, hv⟩ := Option.bind_eq_some_iff.1 h
    obtain ⟨reason, -, rfl⟩ := Option.map_eq_some_iff.1 hv
    exact .inr (.inr (.inr (.inr ⟨reason, rfl⟩)))

theorem call_of_obstacle {pc : UInt8} {width : Nat}
    (h : i.obstacle r refusal = some (.pcOutOfRange pc width)) : i.opcode = .call := by
  rcases obstacle_cases h with ⟨e, he⟩ | ⟨hop, -⟩ | he | he | ⟨reason, he⟩
  · cases he
  · exact hop
  all_goals cases he

/-- No fault applies to an instruction that is ready and whose line is taken, and to no other. -/
theorem ready_and_taken_iff :
    i.Ready r ∧ (i.opcode = .prn → refusal (r.value i.a) = none) ↔
      i.obstacle r refusal = none ∧ i.runsOff r = none := by
  rw [obstacle_eq_none_iff, badRegister_eq_none_iff, noReturn_eq_none_iff, stackLimit_eq_none_iff,
    refused_eq_none_iff, runsOff_eq_none_iff]
  constructor
  · rintro ⟨⟨hreg, hpush, hpop, hroom⟩, htaken⟩
    refine ⟨⟨hreg, fun h => ?_, ⟨hpush, hpop⟩, htaken⟩, fun h => ?_⟩
    · simpa [h, Opcode.size] using hroom (.inl h)
    · exact Nat.lt_succ_of_le (hroom (.inr h))
  · rintro ⟨⟨hreg, hcall, ⟨hpush, hpop⟩, htaken⟩, hoff⟩
    refine ⟨⟨hreg, hpush, hpop, fun h => ?_⟩, htaken⟩
    rcases h with h | h
    · simpa [h, Opcode.size] using hcall h
    · exact Nat.le_of_lt_succ (hoff h)

end Instruction

namespace Machine

/-- The machine after the instruction has been carried out and before the program counter moves. -/
def worked (m : Machine) (i : Instruction) : Machine :=
  { m with regs := i.regsAfter m.regs m.mem, mem := i.memAfter m.regs m.mem }

def completed (m : Machine) (i : Instruction) : Machine where
  regs := { i.regsAfter m.regs m.mem with pc := i.pcAfter m.regs m.mem }
  mem := i.memAfter m.regs m.mem
  state := if i.opcode = .hlt then .halted else .running
  cycles := m.cycles + 1
  last := some i

def complaint (refusal : UInt8 → Option String) (m : Machine) : Option Fault :=
  if m.state = .halted then some .notRunning
  else match Opcode.ofByte? (m.mem.read m.regs.pc) with
    | none => some (.unknownOpcode (m.mem.read m.regs.pc) m.regs.pc)
    | some op =>
      let i : Instruction := ⟨op, m.mem.read (m.regs.pc + 1), m.mem.read (m.regs.pc + 2)⟩
      (i.obstacle m.regs refusal).or (i.runsOff m.regs)

def report (m : Machine) (i : Instruction) : List Event :=
  if i.opcode = .hlt then [.halted m.regs.pc (m.cycles + 1)]
  else if i.fallsThrough m.regs.fl then []
  else [.jumped i.opcode (i.pcAfter m.regs m.mem)]

variable {m : Machine} {i : Instruction} {refusal : UInt8 → Option String}

theorem fetch_eq : m.fetch =
    match Opcode.ofByte? (m.mem.read m.regs.pc) with
    | none => .error (.unknownOpcode (m.mem.read m.regs.pc) m.regs.pc)
    | some op => .ok ⟨op, m.mem.read (m.regs.pc + 1), m.mem.read (m.regs.pc + 2)⟩ := by
  simp only [fetch, Instruction.decode]
  split <;> rename_i h <;> rw [h] <;> rfl

theorem fetch_eq_ok_iff : m.fetch = .ok i ↔
    i.opcode.byte = m.mem.read m.regs.pc ∧
      i = ⟨i.opcode, m.mem.read (m.regs.pc + 1), m.mem.read (m.regs.pc + 2)⟩ := by
  rw [fetch_eq]
  constructor
  · intro h
    split at h
    · cases h
    next op hop => cases h; exact ⟨Opcode.byte_of_ofByte? hop, rfl⟩
  · rintro ⟨h, hi⟩
    rw [← h, Opcode.ofByte?_byte, hi]

theorem fetch_eq_error_iff {b pc : UInt8} : m.fetch = .error (.unknownOpcode b pc) ↔
    pc = m.regs.pc ∧ Opcode.ofByte? (m.mem.read m.regs.pc) = none ∧ b = m.mem.read m.regs.pc := by
  rw [fetch_eq]
  cases Opcode.ofByte? (m.mem.read m.regs.pc) with
  | some op => simp
  | none =>
    simp only [Except.error.injEq, Fault.unknownOpcode.injEq, true_and]
    exact ⟨fun ⟨hb, hpc⟩ => ⟨hpc.symm, hb.symm⟩, fun ⟨hpc, hb⟩ => ⟨hb.symm, hpc.symm⟩⟩

theorem proceed_worked (hoff : i.runsOff m.regs = none) :
    (m.worked i).proceed i.opcode (i.next m.regs m.mem) =
      .ok ({ m.worked i with
        regs := { i.regsAfter m.regs m.mem with pc := i.pcAfter m.regs m.mem }
        state := if i.opcode = .hlt then .halted else m.state }, m.report i) := by
  have hpc : (i.regsAfter m.regs m.mem).pc = m.regs.pc := i.pc_regsAfter ..
  unfold Instruction.next report
  by_cases h : i.opcode = .hlt
  · simp only [if_pos h, proceed, worked, i.pcAfter_of_hlt _ _ h, ← hpc]
  · by_cases hf : i.fallsThrough m.regs.fl
    · simp only [if_neg h, if_pos hf, proceed, worked, hpc,
        if_pos (Instruction.runsOff_eq_none_iff.1 hoff hf), i.pcAfter_of_fallsThrough _ _ hf]
    · simp only [if_neg h, if_neg hf, proceed, worked]

theorem proceed_worked_of_runsOff {f : Fault} (hoff : i.runsOff m.regs = some f) :
    (m.worked i).proceed i.opcode (i.next m.regs m.mem) = .error f := by
  have hpc : (i.regsAfter m.regs m.mem).pc = m.regs.pc := i.pc_regsAfter ..
  obtain ⟨⟨hf, hlt⟩, rfl⟩ := Instruction.runsOff_eq_some_iff.1 hoff
  simp only [i.next_of_fallsThrough _ _ hf, proceed, worked, hpc, if_neg (Nat.not_lt.2 hlt)]

/-- A step, taken apart: a machine that has halted, a byte that is no opcode, an instruction that
cannot be carried out, one after which memory ends, and one that is completed. -/
theorem step_cases (refusal : UInt8 → Option String) (m : Machine) :
    (m.state = .halted ∧ m.step refusal = ⟨.error .notRunning, m, none, []⟩) ∨
    (m.state = .running ∧ Opcode.ofByte? (m.mem.read m.regs.pc) = none ∧ m.step refusal =
      ⟨.error (.unknownOpcode (m.mem.read m.regs.pc) m.regs.pc), m, none, []⟩) ∨
    (m.state = .running ∧ ∃ i, m.fetch = .ok i ∧
      ((∃ f, i.obstacle m.regs refusal = some f ∧
        m.step refusal = ⟨.error f, m, none, [.fetched m.view i]⟩) ∨
      (i.obstacle m.regs refusal = none ∧ ∃ f, i.runsOff m.regs = some f ∧
        m.step refusal = ⟨.error f, m.worked i, i.printed m.regs, [.fetched m.view i]⟩) ∨
      (i.obstacle m.regs refusal = none ∧ i.runsOff m.regs = none ∧
        m.step refusal =
          ⟨.ok i, m.completed i, i.printed m.regs, .fetched m.view i :: m.report i⟩))) := by
  cases hs : m.state with
  | halted => exact .inl ⟨rfl, by simp only [step, hs]⟩
  | running =>
    cases hf : m.fetch with
    | error f =>
      rw [fetch_eq] at hf
      split at hf
      next hop =>
        cases hf
        exact .inr (.inl ⟨rfl, hop, by simp only [step, hs, fetch_eq, hop]⟩)
      next => cases hf
    | ok i =>
      refine .inr (.inr ⟨rfl, i, rfl, ?_⟩)
      cases ho : i.obstacle m.regs refusal with
      | some f => exact .inl ⟨f, rfl, by simp only [step, hs, hf, Instruction.execute_eq, ho]⟩
      | none =>
        right
        cases hoff : i.runsOff m.regs with
        | some f =>
          have hp := proceed_worked_of_runsOff hoff
          simp only [worked, hs] at hp
          exact .inl ⟨rfl, f, rfl, by simp only [step, hs, hf, Instruction.execute_eq, ho, hp, worked]⟩
        | none =>
          have hp := proceed_worked hoff
          simp only [worked, hs] at hp
          exact .inr ⟨rfl, rfl, by simp only [step, hs, hf, Instruction.execute_eq, ho, hp, completed]⟩

theorem step_of_halted (h : m.state = .halted) :
    m.step refusal = ⟨.error .notRunning, m, none, []⟩ := by
  simp only [step, h]

theorem step_of_unknown (hrun : m.state = .running)
    (hop : Opcode.ofByte? (m.mem.read m.regs.pc) = none) : m.step refusal =
      ⟨.error (.unknownOpcode (m.mem.read m.regs.pc) m.regs.pc), m, none, []⟩ := by
  simp only [step, hrun, fetch_eq, hop]

theorem step_of_ok (h : (m.step refusal).result = .ok i) :
    m.state = .running ∧ m.fetch = .ok i ∧
      i.obstacle m.regs refusal = none ∧ i.runsOff m.regs = none ∧ m.step refusal =
        ⟨.ok i, m.completed i, i.printed m.regs, .fetched m.view i :: m.report i⟩ := by
  rcases step_cases refusal m with ⟨-, hs⟩ | ⟨-, -, hs⟩ |
    ⟨hrun, j, hj, ⟨f, -, hs⟩ | ⟨-, f, -, hs⟩ | ⟨ho, hoff, hs⟩⟩
  all_goals rw [hs] at h; cases h
  exact ⟨hrun, hj, ho, hoff, hs⟩

theorem step_of_clear (hrun : m.state = .running) (hi : m.fetch = .ok i)
    (ho : i.obstacle m.regs refusal = none) (hoff : i.runsOff m.regs = none) :
    m.step refusal =
      ⟨.ok i, m.completed i, i.printed m.regs, .fetched m.view i :: m.report i⟩ := by
  rcases step_cases refusal m with ⟨hs, -⟩ | ⟨-, hs, -⟩ |
    ⟨-, j, hj, ⟨f, hs, -⟩ | ⟨-, f, hs, -⟩ | ⟨-, -, hs⟩⟩
  · rw [hrun] at hs; cases hs
  · rw [fetch_eq, hs] at hi; cases hi
  all_goals rw [hi] at hj; cases hj
  · rw [ho] at hs; cases hs
  · rw [hoff] at hs; cases hs
  · exact hs

theorem step_of_obstacle {f : Fault} (hrun : m.state = .running) (hi : m.fetch = .ok i)
    (ho : i.obstacle m.regs refusal = some f) :
    m.step refusal = ⟨.error f, m, none, [.fetched m.view i]⟩ := by
  rcases step_cases refusal m with ⟨hs, -⟩ | ⟨-, hs, -⟩ |
    ⟨-, j, hj, ⟨g, hg, hs⟩ | ⟨hs, -⟩ | ⟨hs, -⟩⟩
  · rw [hrun] at hs; cases hs
  · rw [fetch_eq, hs] at hi; cases hi
  all_goals rw [hi] at hj; cases hj
  · rw [ho] at hg; cases hg
    exact hs
  · rw [ho] at hs; cases hs
  · rw [ho] at hs; cases hs

theorem step_of_runsOff {f : Fault} (hrun : m.state = .running) (hi : m.fetch = .ok i)
    (ho : i.obstacle m.regs refusal = none) (hoff : i.runsOff m.regs = some f) :
    m.step refusal = ⟨.error f, m.worked i, i.printed m.regs, [.fetched m.view i]⟩ := by
  rcases step_cases refusal m with ⟨hs, -⟩ | ⟨-, hs, -⟩ |
    ⟨-, j, hj, ⟨g, hs, -⟩ | ⟨-, g, hg, hs⟩ | ⟨-, hs, -⟩⟩
  · rw [hrun] at hs; cases hs
  · rw [fetch_eq, hs] at hi; cases hi
  all_goals rw [hi] at hj; cases hj
  · rw [ho] at hs; cases hs
  · rw [hoff] at hg; cases hg
    exact hs
  · rw [hoff] at hs; cases hs

theorem complaint_of_fetch (hrun : m.state = .running) (hi : m.fetch = .ok i) :
    m.complaint refusal = (i.obstacle m.regs refusal).or (i.runsOff m.regs) := by
  obtain ⟨hop, hi⟩ := fetch_eq_ok_iff.1 hi
  have hn : ¬ m.state = .halted := by rw [hrun]; simp
  rw [complaint, if_neg hn, ← hop, Opcode.ofByte?_byte, hi]

/-- The complaint is the fault that the step reports. -/
theorem result_eq_error_iff {f : Fault} :
    (m.step refusal).result = .error f ↔ m.complaint refusal = some f := by
  rcases step_cases refusal m with ⟨hs, h⟩ | ⟨hs, hop, h⟩ |
    ⟨hs, i, hi, ⟨g, ho, h⟩ | ⟨ho, g, hoff, h⟩ | ⟨ho, hoff, h⟩⟩
  · rw [h, complaint, if_pos hs]; simp
  · have hn : ¬ m.state = .halted := by rw [hs]; simp
    rw [h, complaint, if_neg hn, hop]; simp
  · rw [h, complaint_of_fetch hs hi, ho]; simp
  · rw [h, complaint_of_fetch hs hi, ho, hoff]; simp
  · rw [h, complaint_of_fetch hs hi, ho, hoff]; simp

theorem step_of_ready (hrun : m.state = .running) (hi : m.fetch = .ok i) (hready : i.Ready m.regs)
    (htaken : i.opcode = .prn → refusal (m.regs.value i.a) = none) : m.step refusal =
      ⟨.ok i, m.completed i, i.printed m.regs, .fetched m.view i :: m.report i⟩ := by
  obtain ⟨ho, hoff⟩ := Instruction.ready_and_taken_iff.1 ⟨hready, htaken⟩
  exact step_of_clear hrun hi ho hoff

theorem cycles_completed (h : m.cycles.toNat < maxCycles) :
    (m.completed i).cycles.toNat = m.cycles.toNat + 1 := by
  change (m.cycles + 1).toNat = m.cycles.toNat + 1
  rw [UInt64.toNat_add]
  exact Nat.mod_eq_of_lt (Nat.add_lt_of_lt_sub h)

theorem step_completes_iff_ready (refusal : UInt8 → Option String) (m : Machine)
    (hrun : m.state = .running)
    (hcycles : m.cycles.toNat < maxCycles)
    (htaken : m.mem.read m.regs.pc = Opcode.prn.byte → (m.mem.read (m.regs.pc + 1)).toNat < 8 →
      refusal (m.regs.value (m.mem.read (m.regs.pc + 1))) = none) :
    let a := m.mem.read (m.regs.pc + 1)
    let b := m.mem.read (m.regs.pc + 2)
    ((∃ i, (m.step refusal).result = .ok i) ↔
      ∃ op : Opcode, op.byte = m.mem.read m.regs.pc ∧ Instruction.Ready ⟨op, a, b⟩ m.regs) ∧
    ∀ op : Opcode, op.byte = m.mem.read m.regs.pc → Instruction.Ready ⟨op, a, b⟩ m.regs →
      (m.step refusal).result = .ok ⟨op, a, b⟩ ∧
      (m.step refusal).machine = m.completed ⟨op, a, b⟩ ∧
      (m.step refusal).machine.cycles.toNat = m.cycles.toNat + 1 ∧
      ∀ run : Run, (run.absorb (m.step refusal)).output = run.output ++
        if op = .prn then toString (m.regs.value a).toNat ++ "\n" else "" := by
  intro a b
  have hclear : ∀ op : Opcode, op.byte = m.mem.read m.regs.pc →
      Instruction.Ready ⟨op, a, b⟩ m.regs → m.step refusal =
        ⟨.ok ⟨op, a, b⟩, m.completed ⟨op, a, b⟩, Instruction.printed ⟨op, a, b⟩ m.regs,
          .fetched m.view ⟨op, a, b⟩ :: m.report ⟨op, a, b⟩⟩ := by
    intro op hop hready
    have hi : m.fetch = .ok ⟨op, a, b⟩ := fetch_eq_ok_iff.2 ⟨hop, rfl⟩
    refine step_of_ready hrun hi hready fun h => ?_
    cases h
    exact htaken hop.symm (hready.registers a (.head _))
  refine ⟨⟨fun ⟨i, h⟩ => ?_, fun ⟨op, hop, hready⟩ => ?_⟩, fun op hop hready => ?_⟩
  · obtain ⟨-, hi, ho, hoff, -⟩ := step_of_ok h
    obtain ⟨hop, hi⟩ := fetch_eq_ok_iff.1 hi
    refine ⟨i.opcode, hop, ?_⟩
    rw [← hi]
    exact (Instruction.ready_and_taken_iff.2 ⟨ho, hoff⟩).1
  · exact ⟨_, congrArg Step.result (hclear op hop hready)⟩
  · rw [hclear op hop hready]
    refine ⟨rfl, rfl, cycles_completed hcycles, fun run => ?_⟩
    rw [Run.output_absorb]
    by_cases h : op = .prn <;> simp [Instruction.printed, h]

/-- A machine about to push its stack pointer over the operand of the push. -/
def pushingOverItself : Machine :=
  { powerOn with
    regs := Registers.powerOn.put 7 2
    mem := (Memory.blank.write 0 0x45).write 1 7 }

theorem step_pushingOverItself :
    pushingOverItself.state = .running ∧ pushingOverItself.cycles.toNat < maxCycles ∧
      (pushingOverItself.step fun _ => none).result = .ok ⟨.push, 7, 0⟩ ∧
      (pushingOverItself.step fun _ => none).machine = pushingOverItself.completed ⟨.push, 7, 0⟩ ∧
      (pushingOverItself.completed ⟨.push, 7, 0⟩).mem.read 1 = 1 := by
  have hready : Instruction.Ready ⟨.push, 7, 0⟩ pushingOverItself.regs :=
    { registers := by simp [Instruction.registerOperands]
      push := by decide
      pop := by decide
      room := by decide }
  have h := (step_completes_iff_ready (fun _ => none) pushingOverItself rfl (by decide)
    fun _ _ => rfl).2 .push rfl hready
  exact ⟨rfl, by decide, h.1, h.2.1, rfl⟩

/-- The fault of an instruction that has been carried out and after which memory ends. -/
def Stranded (m : Machine) (f : Fault) : Prop :=
  (∃ pc width, f = .pcOutOfRange pc width) ∧ m.mem.read m.regs.pc ≠ Opcode.call.byte

theorem not_stranded_of_obstacle {f : Fault} (hi : m.fetch = .ok i)
    (ho : i.obstacle m.regs refusal = some f) : ¬ m.Stranded f := by
  rintro ⟨⟨pc, width, rfl⟩, hcall⟩
  apply hcall
  rw [← (fetch_eq_ok_iff.1 hi).1, Instruction.call_of_obstacle ho]

theorem stranded_of_runsOff {f : Fault} (hi : m.fetch = .ok i)
    (hoff : i.runsOff m.regs = some f) : m.Stranded f := by
  obtain ⟨⟨hf, -⟩, rfl⟩ := Instruction.runsOff_eq_some_iff.1 hoff
  refine ⟨⟨_, _, rfl⟩, fun e => ?_⟩
  rw [← (fetch_eq_ok_iff.1 hi).1] at e
  simp [Instruction.fallsThrough, Opcode.byte_injective e] at hf

theorem step_fails_with_first_complaint (refusal : UInt8 → Option String) (m : Machine) :
    (∀ f, (m.step refusal).result = .error f ↔ m.complaint refusal = some f) ∧
    ∀ f, (m.step refusal).result = .error f →
      (m.step refusal).machine.regs.pc = m.regs.pc ∧
      (m.step refusal).machine.state = m.state ∧
      (m.step refusal).machine.cycles = m.cycles ∧
      (m.step refusal).machine.last = m.last ∧
      (¬ m.Stranded f → (m.step refusal).machine = m ∧ (m.step refusal).printed = none) ∧
      (m.Stranded f → ∃ i, m.fetch = .ok i ∧
        i.execute refusal m.regs m.mem = .ok ⟨(m.step refusal).machine.regs,
          (m.step refusal).machine.mem, (m.step refusal).printed, .advance i.opcode.size⟩ ∧
        (m.step refusal).machine = m.worked i ∧
        (m.step refusal).printed = i.printed m.regs) := by
  refine ⟨fun f => result_eq_error_iff, fun f hf => ?_⟩
  rcases step_cases refusal m with ⟨-, h⟩ | ⟨-, -, h⟩ |
    ⟨-, i, hi, ⟨g, ho, h⟩ | ⟨ho, g, hoff, h⟩ | ⟨-, -, h⟩⟩
  all_goals rw [h] at hf ⊢; cases hf
  · refine ⟨rfl, rfl, rfl, rfl, fun _ => ⟨rfl, rfl⟩, fun hst => ?_⟩
    obtain ⟨⟨_, _, e⟩, -⟩ := hst
    cases e
  · refine ⟨rfl, rfl, rfl, rfl, fun _ => ⟨rfl, rfl⟩, fun hst => ?_⟩
    obtain ⟨⟨_, _, e⟩, -⟩ := hst
    cases e
  · refine ⟨rfl, rfl, rfl, rfl, fun _ => ⟨rfl, rfl⟩, fun hst => ?_⟩
    exact absurd hst (not_stranded_of_obstacle hi ho)
  · have hst : m.Stranded f := stranded_of_runsOff hi hoff
    obtain ⟨⟨hf, -⟩, -⟩ := Instruction.runsOff_eq_some_iff.1 hoff
    refine ⟨i.pc_regsAfter _ _, rfl, rfl, rfl, fun hn => absurd hst hn, fun _ => ?_⟩
    refine ⟨i, hi, ?_, rfl, rfl⟩
    rw [Instruction.execute_eq, ho, i.next_of_fallsThrough _ _ hf]
    rfl

/-- The same push in the last two cells, after which memory ends. -/
def pushingAtTheEnd : Machine :=
  { powerOn with
    regs := { Registers.powerOn with pc := 0xFE }
    mem := (Memory.blank.write 0xFE 0x45).write 0xFF 7 }

theorem step_pushingAtTheEnd :
    (pushingAtTheEnd.step fun _ => none).result = .error (.pcOutOfRange 0xFE 2) ∧
      pushingAtTheEnd.Stranded (.pcOutOfRange 0xFE 2) ∧
      (pushingAtTheEnd.step fun _ => none).machine = pushingAtTheEnd.worked ⟨.push, 7, 0⟩ ∧
      (pushingAtTheEnd.worked ⟨.push, 7, 0⟩).mem.read 0xF3 = 0xF3 := by
  obtain ⟨hiff, hkept⟩ := step_fails_with_first_complaint (fun _ => none) pushingAtTheEnd
  have hf := (hiff (.pcOutOfRange 0xFE 2)).2 rfl
  have hst : pushingAtTheEnd.Stranded (.pcOutOfRange 0xFE 2) := ⟨⟨_, _, rfl⟩, by decide⟩
  obtain ⟨i, hi, -, hm, -⟩ := (hkept _ hf).2.2.2.2.2 hst
  cases hi
  exact ⟨hf, hst, hm, rfl⟩

end Machine

end LS8
