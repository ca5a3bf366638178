import LS8.Proofs.Execution
import LS8.Proofs.RunLoop
/-! Straight-line code. A step that is completed without a jump leaves the program counter behind its
instruction, or where it was if it halts, and never beyond the end of memory
(`Machine.toNat_pc_completed`). Only a halt and a return take less than two cells, so each such step
brings the program counter two cells nearer to the end, whatever the cells hold and whoever has
written them. Hence a machine cannot go on for long without a jump: it halts or fails. -/

namespace LS8

namespace Instruction

variable {i : Instruction} {f : Flags}

/-- Whether the program counter is set: by a call, a return, a jump or a branch that is taken. -/
def jumps (i : Instruction) (f : Flags) : Bool :=
  match i.opcode with
  | .call | .ret | .jmp => true
  | .jeq => f.isEqual
  | .jne => !f.isEqual
  | _ => false

theorem jumps_eq_false_iff : i.jumps f = false ↔ i.opcode = .hlt ∨ i.fallsThrough f = true := by
  obtain ⟨op, a, b⟩ := i
  cases op <;> simp [jumps, fallsThrough]

theorem not_fallsThrough_of_jumps (h : i.jumps f = true) :
    i.opcode ≠ .hlt ∧ i.fallsThrough f = false := by
  obtain ⟨op, a, b⟩ := i
  cases op <;> simp_all [jumps, fallsThrough]

theorem ne_hlt_of_fallsThrough (h : i.fallsThrough f = true) : i.opcode ≠ .hlt := by
  intro hop
  simp [fallsThrough, hop] at h

theorem two_le_size (h : i.fallsThrough f = true) : 2 ≤ i.opcode.size := by
  obtain ⟨op, a, b⟩ := i
  cases op
  case hlt | ret => cases h
  all_goals simp only [Opcode.size]; omega

end Instruction

namespace Machine

variable {m : Machine} {i : Instruction} {refusal : UInt8 → Option String}

/-- What a completed step reports: its jump, its halt, or nothing where it falls through. -/
theorem report_cases (m : Machine) (i : Instruction) :
    (i.jumps m.regs.fl = true ∧ m.report i = [.jumped i.opcode (m.completed i).regs.pc]) ∨
    (i.jumps m.regs.fl = false ∧ i.opcode = .hlt ∧
      m.report i = [.halted m.regs.pc (m.cycles + 1)]) ∨
    (i.jumps m.regs.fl = false ∧ i.opcode ≠ .hlt ∧ m.report i = []) := by
  cases hj : i.jumps m.regs.fl with
  | true =>
    obtain ⟨hop, hf⟩ := Instruction.not_fallsThrough_of_jumps hj
    refine .inl ⟨rfl, ?_⟩
    rw [report, if_neg hop, hf]
    rfl
  | false =>
    rcases Instruction.jumps_eq_false_iff.1 hj with hop | hf
    · exact .inr (.inl ⟨rfl, hop, if_pos hop⟩)
    · have hop := Instruction.ne_hlt_of_fallsThrough hf
      exact .inr (.inr ⟨rfl, hop, by rw [report, if_neg hop, if_pos hf]⟩)

/-- A step reports a jump if and only if it has completed an instruction that jumps. -/
theorem reports_jump_iff : (∃ op target, .jumped op target ∈ (m.step refusal).log) ↔
    ∃ i, (m.step refusal).result = .ok i ∧ i.jumps m.regs.fl = true := by
  rcases step_cases refusal m with ⟨-, hs⟩ | ⟨-, -, hs⟩ |
    ⟨-, i, -, ⟨f, -, hs⟩ | ⟨-, f, -, hs⟩ | ⟨-, -, hs⟩⟩
  all_goals rw [hs]
  case inr.inr.inr.inr =>
    rcases m.report_cases i with ⟨hj, hr⟩ | ⟨hj, -, hr⟩ | ⟨hj, -, hr⟩
    all_goals simp [hr, hj]
  all_goals simp

/-- Without a jump the program counter moves past the instruction and no further, and memory does
not end there. -/
theorem toNat_pc_completed (hoff : i.runsOff m.regs = none) (hj : i.jumps m.regs.fl = false) :
    (m.completed i).regs.pc.toNat =
      m.regs.pc.toNat + if i.opcode = .hlt then 0 else i.opcode.size := by
  have hpc : (m.completed i).regs.pc = i.pcAfter m.regs m.mem := rfl
  rcases Instruction.jumps_eq_false_iff.1 hj with hop | hf
  · rw [hpc, i.pcAfter_of_hlt _ _ hop, if_pos hop]
    rfl
  · rw [hpc, i.pcAfter_of_fallsThrough _ _ hf, if_neg (Instruction.ne_hlt_of_fallsThrough hf)]
    exact toNat_add_ofNat (Instruction.runsOff_eq_none_iff.1 hoff hf)

/-- Only a jump sets the program counter back, whether a step completes or fails. -/
theorem reports_jump_of_pc_lt (h : (m.step refusal).machine.regs.pc < m.regs.pc) :
    ∃ op target, .jumped op target ∈ (m.step refusal).log := by
  rw [reports_jump_iff]
  rcases step_cases refusal m with ⟨-, hs⟩ | ⟨-, -, hs⟩ |
    ⟨-, i, -, ⟨f, -, hs⟩ | ⟨-, f, -, hs⟩ | ⟨-, hoff, hs⟩⟩
  all_goals rw [hs] at h ⊢
  · exact absurd h (UInt8.lt_irrefl _)
  · exact absurd h (UInt8.lt_irrefl _)
  · exact absurd h (UInt8.lt_irrefl _)
  · simp [worked] at h
  · refine ⟨i, rfl, Bool.of_not_eq_false fun hj => ?_⟩
    rw [UInt8.lt_iff_toNat_lt, toNat_pc_completed hoff hj] at h
    omega

/-- How far a machine has come. A halt counts as if it had taken two cells, though the program
counter stays on it. -/
def headway (m : Machine) : Nat :=
  m.regs.pc.toNat + if m.state = .halted then 2 else 0

theorem headway_of_running (h : m.state = .running) : m.headway = m.regs.pc.toNat := by
  rw [headway, h]
  rfl

theorem headway_le (m : Machine) : m.headway ≤ 257 := by
  have := m.regs.pc.toNat_lt
  rw [headway]
  split <;> omega

/-- Each completed step without a jump makes two cells of headway at least. -/
theorem headway_completed (hrun : m.state = .running) (hoff : i.runsOff m.regs = none)
    (hj : i.jumps m.regs.fl = false) : m.headway + 2 ≤ (m.completed i).headway := by
  have hstate : (m.completed i).state = if i.opcode = .hlt then .halted else .running := rfl
  rw [headway_of_running hrun, headway, toNat_pc_completed hoff hj, hstate]
  by_cases hop : i.opcode = .hlt
  · simp [hop]
  · have hf := (Instruction.jumps_eq_false_iff.1 hj).resolve_left hop
    have := Instruction.two_le_size hf
    simp only [hop, if_false]
    omega

theorem headway_of_error {f : Fault} (h : (m.step refusal).result = .error f) :
    (m.step refusal).machine.headway = m.headway := by
  obtain ⟨hpc, hstate, -⟩ := (step_fails_with_first_complaint refusal m).2 f h
  rw [headway, headway, hpc, hstate]

end Machine

def Turn.Jumps (t : Turn) : Prop :=
  t.instr.jumps t.before.regs.fl = true

instance (t : Turn) : Decidable t.Jumps :=
  inferInstanceAs (Decidable (_ = true))

variable {m n : Machine} {ts : List Turn} {t : Turn} {c : Console}

theorem Turn.Completes.of_not_jumps (ht : t.Completes) (hj : ¬ t.Jumps) :
    t.before.headway + 2 ≤ t.after.headway ∧ t.after.regs.pc.toNat =
      t.before.regs.pc.toNat + if t.instr.opcode = .hlt then 0 else t.instr.opcode.size := by
  have hfalse : t.instr.jumps t.before.regs.fl = false := Bool.eq_false_iff.2 hj
  obtain ⟨refusal, hi, -⟩ := id ht
  obtain ⟨hrun, -, -, hoff, -⟩ := Machine.step_of_ok hi
  rw [ht.after_eq]
  exact ⟨Machine.headway_completed hrun hoff hfalse, Machine.toNat_pc_completed hoff hfalse⟩

/-- By induction on the turns, they make two cells of headway each. -/
theorem Execution.headway_add_le (h : Execution m ts n) (hj : ∀ t ∈ ts, ¬ t.Jumps) :
    m.headway + 2 * ts.length ≤ n.headway := by
  induction h with
  | nil => exact Nat.le_refl _
  | @snoc us u hus hu ih =>
    have hbefore := ih fun t ht => hj t (List.mem_append_left _ ht)
    have hlast := (hu.of_not_jumps (hj u (by simp))).1
    rw [List.length_append, List.length_singleton]
    omega

namespace Run

def TookJump (r : Run) : Prop :=
  ∃ op target, .jumped op target ∈ r.log

theorem mem_log_absorb {r : Run} {s : Step} {e : Event} :
    e ∈ (r.absorb s).log ↔ e ∈ r.log ∨ e ∈ s.log := by
  rw [← Array.mem_toList_iff, log_absorb, List.mem_append, Array.mem_toList_iff]

/-- A run gains two cells with a step that it completes without a jump, and loses none with one that
fails. -/
theorem headway_add_le_absorb {r : Run} {refusal : UInt8 → Option String}
    (hr : m.headway + 2 * r.count ≤ r.machine.headway)
    (hj : ¬ (r.absorb (r.machine.step refusal)).TookJump) :
    m.headway + 2 * (r.absorb (r.machine.step refusal)).count ≤
      (r.absorb (r.machine.step refusal)).machine.headway := by
  rw [machine_absorb]
  cases hi : (r.machine.step refusal).result with
  | error f => rwa [absorb, hi, Machine.headway_of_error hi]
  | ok i =>
    obtain ⟨hrun, -, -, hoff, hstep⟩ := Machine.step_of_ok hi
    have hnone : i.jumps r.machine.regs.fl = false := by
      refine Bool.eq_false_iff.2 fun h => hj ?_
      obtain ⟨op, target, hmem⟩ := Machine.reports_jump_iff.2 ⟨i, hi, h⟩
      exact ⟨op, target, mem_log_absorb.2 (.inr hmem)⟩
    have hlast := Machine.headway_completed hrun hoff hnone
    rw [absorb, hi, hstep]
    dsimp only
    omega

/-- By induction on the turns of a run, it has gained two cells for each step. -/
theorem headway_add_le {turns : Nat} :
    ¬ ((start m).extend c turns).TookJump →
      m.headway + 2 * ((start m).extend c turns).count ≤
        ((start m).extend c turns).machine.headway := by
  apply extend_induction (P := fun r =>
    ¬ r.TookJump → m.headway + 2 * r.count ≤ r.machine.headway)
  case start => exact fun _ => Nat.le_refl _
  case step =>
    intro k r _ _ _ _ ih hj
    refine headway_add_le_absorb (ih fun ⟨op, target, hmem⟩ => hj ?_) hj
    exact ⟨op, target, mem_log_absorb.2 (.inl hmem)⟩
  case stop =>
    intro k r _ _ _ _ ih hj
    exact ih fun ⟨op, target, hmem⟩ => hj ⟨op, target, Array.mem_push_of_mem _ hmem⟩

theorem ended_of_isOver {r : Run} (h : r.isOver = true) :
    r.machine.state = .halted ∨ r.ending = some .stopped ∨ ∃ f, r.result = .error f := by
  rcases hending : r.ending with _ | _ | f
  · exact .inl (by simpa [isOver, hending, Machine.isHalted] using h)
  · exact .inr (.inl rfl)
  · exact .inr (.inr ⟨f, by rw [result, hending]⟩)

end Run

/-- Without a jump a machine takes no more steps than there are pairs of cells to the end of memory,
and one to halt. A run that is given so many turns has jumped, or it has come to an end. -/
theorem straight_line_is_short (m : Machine) :
    let bound := (255 - m.regs.pc.toNat) / 2 + 1
    (∀ ts n, Execution m ts n → (∀ t ∈ ts, ¬ t.Jumps) →
      ts.length ≤ bound ∧ ∀ t ∈ ts, t.after.regs.pc.toNat =
        t.before.regs.pc.toNat + if t.instr.opcode = .hlt then 0 else t.instr.opcode.size) ∧
    (∀ c turns, let r := (Run.start m).extend c turns
      r.TookJump ∨ r.count ≤ bound) ∧
    (∀ c, let r := (Run.start m).extend c bound
      r.TookJump ∨ r.machine.state = .halted ∨ r.ending = some .stopped ∨
        ∃ f, r.result = .error f) ∧
    ∀ refusal, (m.step refusal).machine.regs.pc < m.regs.pc →
      ∃ op target, .jumped op target ∈ (m.step refusal).log := by
  intro bound
  have hpc : m.regs.pc.toNat ≤ m.headway := Nat.le_add_right _ _
  refine ⟨fun ts n h hj => ⟨?_, fun t ht => ?_⟩, fun c turns => ?_, fun c => ?_,
    fun refusal => Machine.reports_jump_of_pc_lt⟩
  · have := h.headway_add_le hj
    have := n.headway_le
    omega
  · obtain ⟨pre, post, hts⟩ := List.append_of_mem ht
    exact ((h.at_turn hts).2.of_not_jumps (hj t ht)).2
  · refine Classical.or_iff_not_imp_left.2 fun hj => ?_
    have := Run.headway_add_le hj
    have := ((Run.start m).extend c turns).machine.headway_le
    omega
  · refine Classical.or_iff_not_imp_left.2 fun hj => Run.ended_of_isOver (Bool.of_not_eq_false ?_)
    -- a run that could go on would have completed a step in each of its turns
    intro hover
    have hfar := Run.headway_add_le hj
    have hcount := (Follows.of_extend hover).count
    have hrun := (Run.isOver_eq_false_iff.1 hover).1
    have := ((Run.start m).extend c bound).machine.regs.pc.toNat_lt
    rw [Machine.headway_of_running hrun] at hfar
    omega

/-- A machine near the end of memory that pushes a halt in front of itself. -/
def layingHalt : Machine :=
  { Machine.powerOn with
    regs := { (Registers.powerOn.put 0 0x01).put 7 0xFF with pc := 0xFC }
    mem := Memory.blank.store 0xFC [0x45, 0] }

def layTurn : Turn := layingHalt.turn ⟨.push, 0, 0⟩

def laidTurn : Turn := layTurn.after.turn ⟨.hlt, 0, 0⟩

theorem execution_layingHalt : Execution layingHalt [layTurn, laidTurn] laidTurn.after := by
  have h : Execution layingHalt [layTurn] layTurn.after :=
    .snoc (t := layTurn) .nil ⟨fun _ => none, rfl, rfl⟩
  exact .snoc (t := laidTurn) h ⟨fun _ => none, rfl, rfl⟩

theorem layingHalt_is_short :
    Execution layingHalt [layTurn, laidTurn] laidTurn.after ∧
      (∀ t ∈ [layTurn, laidTurn], ¬ t.Jumps) ∧
      [layTurn, laidTurn].length ≤ (255 - layingHalt.regs.pc.toNat) / 2 + 1 ∧
      (255 - layingHalt.regs.pc.toNat) / 2 + 1 = 2 ∧
      laidTurn.after.regs.pc.toNat = laidTurn.before.regs.pc.toNat := by
  have hj : ∀ t ∈ [layTurn, laidTurn], ¬ t.Jumps := by decide
  obtain ⟨hturns, -, -, -⟩ := straight_line_is_short layingHalt
  obtain ⟨hlength, hpc⟩ := hturns _ _ execution_layingHalt hj
  have hlaid := hpc laidTurn (by simp)
  exact ⟨execution_layingHalt, hj, hlength, rfl, hlaid⟩

end LS8
