import Mathlib.Data.List.Induction
import LS8.Proofs.Attempts
/-! The flags as a record of the last comparison. A step that is tried compares two registers if its
instruction does and both of them exist (`compared?`); then it sets the flags to the one bit of the
outcome, even if memory ends after it, and every other step leaves them alone (`fl_step`). So after
any steps from power-on the flags are those of the last comparison tried (`fl_attempt`), and the
branches, which look at nothing but the flags, follow it. -/

namespace LS8

/-- Exactly one bit for a comparison, no bit where there was none. -/
def Flags.ofLast : Option (UInt8 × UInt8) → Flags
  | none => ⟨0⟩
  | some (x, y) => ofOrdering (compare x.toNat y.toNat)

theorem Flags.isEqual_ofOrdering (x y : UInt8) :
    (ofOrdering (compare x.toNat y.toNat)).isEqual = true ↔ x = y := by
  rcases Nat.lt_trichotomy x.toNat y.toNat with h | h | h
  · rw [Nat.compare_eq_lt.2 h, ← UInt8.toNat_inj]
    exact ⟨nofun, fun e => absurd e (Nat.ne_of_lt h)⟩
  · rw [Nat.compare_eq_eq.2 h, ← UInt8.toNat_inj]
    exact ⟨fun _ => h, fun _ => rfl⟩
  · rw [Nat.compare_eq_gt.2 h, ← UInt8.toNat_inj]
    exact ⟨nofun, fun e => absurd e.symm (Nat.ne_of_lt h)⟩

theorem Flags.isEqual_ofLast {last : Option (UInt8 × UInt8)} :
    (ofLast last).isEqual = true ↔ ∃ x, last = some (x, x) := by
  cases last with
  | none => exact ⟨nofun, nofun⟩
  | some c =>
    obtain ⟨x, y⟩ := c
    rw [ofLast, isEqual_ofOrdering]
    simp [eq_comm]

namespace Instruction

variable {i : Instruction} {r : Registers} {m : Memory} {refusal : UInt8 → Option String}

/-- A comparison sets the flags, every other instruction leaves them alone. -/
theorem fl_regsAfter : (i.regsAfter r m).fl =
    if i.opcode = .cmp then .ofOrdering (compare (r.value i.a).toNat (r.value i.b).toNat)
    else r.fl := by
  obtain ⟨op, a, b⟩ := i
  cases op
  case pop =>
    simp only [regsAfter]
    split <;> rfl
  all_goals rfl

/-- Nothing but a missing register keeps a comparison from being carried out. -/
theorem obstacle_of_cmp (h : i.opcode = .cmp) : i.obstacle r refusal = i.badRegister := by
  have hstack : i.stackLimit r = none := by simp [stackLimit, h]
  have hprinter : i.refused r refusal = none := by simp [refused, printed, h]
  rw [obstacle, noReturn_of_ne (by simp [h]), hstack, hprinter]
  simp

theorem obstacle_of_branch (h : i.opcode = .jeq ∨ i.opcode = .jne) (ha : i.a.toNat < 8) :
    i.obstacle r refusal = none := by
  obtain ⟨op, a, b⟩ := i
  rcases h with rfl | rfl
  all_goals
    exact obstacle_eq_none_iff.2 ⟨by rw [badRegister_one rfl, if_pos ha], rfl, rfl, rfl⟩

/-- Where a branch does not fall through it goes to the value of its register. -/
theorem pcAfter_of_branch (h : i.opcode = .jeq ∨ i.opcode = .jne)
    (hf : i.fallsThrough r.fl = false) : i.pcAfter r m = r.value i.a := by
  obtain ⟨op, a, b⟩ := i
  rcases h with rfl | rfl
  · have he : r.fl.isEqual = true := by simpa [fallsThrough] using hf
    simp only [pcAfter, he]
    rfl
  · have he : r.fl.isEqual = false := hf
    simp only [pcAfter, he]
    rfl

end Instruction

namespace Machine

def compared? (m : Machine) : Option (UInt8 × UInt8) :=
  m.tries?.bind fun i =>
    if i.opcode = .cmp ∧ i.a.toNat < 8 ∧ i.b.toNat < 8 then
      some (m.regs.value i.a, m.regs.value i.b)
    else none

/-- The last values compared by steps that were tried. -/
def lastCompared? (m : Machine) (refusals : List (UInt8 → Option String)) :
    Option (UInt8 × UInt8) :=
  ((m.attempts refusals).filterMap fun a => a.before.compared?).getLast?

variable {m : Machine} {i : Instruction} {refusal : UInt8 → Option String}

theorem compared?_of_tries (hi : m.tries? = some i) : m.compared? =
    if i.opcode = .cmp ∧ i.badRegister = none then
      some (m.regs.value i.a, m.regs.value i.b)
    else none := by
  have hregs : i.opcode = .cmp ∧ i.badRegister = none ↔
      i.opcode = .cmp ∧ i.a.toNat < 8 ∧ i.b.toNat < 8 := by
    refine and_congr_right fun h => ?_
    rw [Instruction.badRegister_eq_none_iff, Instruction.registerOperands, h]
    simp
  simp only [compared?, hi, Option.bind_some, hregs]

/-- An instruction that was carried out has set the flags if it compared. -/
theorem fl_of_carried {last : Option (UInt8 × UInt8)} (hi : m.tries? = some i)
    (ho : i.obstacle m.regs refusal = none) (hfl : m.regs.fl = .ofLast last) :
    (i.regsAfter m.regs m.mem).fl = .ofLast (m.compared?.or last) := by
  rw [Instruction.fl_regsAfter, compared?_of_tries hi]
  by_cases hop : i.opcode = .cmp
  · rw [Instruction.obstacle_of_cmp hop] at ho
    rw [if_pos hop, if_pos ⟨hop, ho⟩]
    rfl
  · rw [if_neg hop, if_neg fun h => hop h.1]
    exact hfl

/-- A step that is tried keeps the record. -/
theorem fl_step {last : Option (UInt8 × UInt8)} (hfl : m.regs.fl = .ofLast last) :
    (m.step refusal).machine.regs.fl = .ofLast (m.compared?.or last) := by
  rcases step_tries refusal m with ⟨hi, f, h⟩ |
    ⟨i, hi, ⟨f, ho, h⟩ | ⟨ho, f, -, h⟩ | ⟨ho, -, h⟩⟩
  · have hnone : m.compared? = none := by rw [compared?, hi]; rfl
    rw [h, hnone]
    exact hfl
  · have hnone : m.compared? = none := by
      rw [compared?_of_tries hi]
      refine if_neg fun hc => ?_
      rw [Instruction.obstacle_of_cmp hc.1, hc.2] at ho
      cases ho
    rw [h, hnone]
    exact hfl
  · rw [h]
    exact fl_of_carried hi ho hfl
  · rw [h]
    exact fl_of_carried hi ho hfl

theorem lastCompared?_concat (m : Machine) (refusals : List (UInt8 → Option String)) :
    m.lastCompared? (refusals ++ [refusal]) =
      (m.attempt refusals).compared?.or (m.lastCompared? refusals) := by
  rw [lastCompared?, attempts_concat, List.filterMap_append, List.getLast?_append]
  congr 1
  cases h : (m.attempt refusals).compared? <;> simp [h]

/-- By induction on the steps, the flags are those of the last comparison. -/
theorem fl_attempt (hfl : m.regs.fl = ⟨0⟩) (refusals : List (UInt8 → Option String)) :
    (m.attempt refusals).regs.fl = .ofLast (m.lastCompared? refusals) := by
  induction refusals using List.reverseRecOn with
  | nil => exact hfl
  | append_singleton refusals refusal ih =>
    rw [attempt_concat, lastCompared?_concat]
    exact fl_step ih

/-- A branch that finds its register: where it jumps it goes on at that register's value, and where
it does not it goes on behind itself unless memory ends there. -/
structure Branches (m : Machine) (i : Instruction) (jumping : Prop) (s : Step) : Prop where
  reported : (∃ target, .jumped i.opcode target ∈ s.log) ↔ jumping
  taken : jumping → s.result = .ok i ∧ s.machine.regs.pc = m.regs.value i.a
  passed : ¬ jumping →
    (s.result = .ok i ∧ s.machine.regs.pc.toNat = m.regs.pc.toNat + 2) ∨
    (s.result = .error (.pcOutOfRange m.regs.pc 2) ∧ s.machine.regs.pc = m.regs.pc)

variable {jumping : Prop}

theorem branches_taken (hrun : m.state = .running) (hi : m.fetch = .ok i)
    (hop : i.opcode = .jeq ∨ i.opcode = .jne) (ho : i.obstacle m.regs refusal = none)
    (hf : i.fallsThrough m.regs.fl = false) (hj : jumping) :
    m.Branches i jumping (m.step refusal) := by
  have hhlt : i.opcode ≠ .hlt := by rcases hop with h | h <;> simp [h]
  have hoff : i.runsOff m.regs = none :=
    Instruction.runsOff_eq_none_iff.2 fun h => by rw [hf] at h; cases h
  have hreport : m.report i = [.jumped i.opcode (i.pcAfter m.regs m.mem)] := by
    simp only [report, if_neg hhlt, hf]
    rfl
  rw [step_of_clear hrun hi ho hoff, hreport]
  exact
    { reported := ⟨fun _ => hj, fun _ => ⟨i.pcAfter m.regs m.mem, by simp⟩⟩
      taken := fun _ => ⟨rfl, Instruction.pcAfter_of_branch hop hf⟩
      passed := fun h => absurd hj h }

theorem branches_passed (hrun : m.state = .running) (hi : m.fetch = .ok i)
    (hop : i.opcode = .jeq ∨ i.opcode = .jne) (ho : i.obstacle m.regs refusal = none)
    (hf : i.fallsThrough m.regs.fl = true) (hj : ¬ jumping) :
    m.Branches i jumping (m.step refusal) := by
  have hhlt : i.opcode ≠ .hlt := by rcases hop with h | h <;> simp [h]
  have hsize : i.opcode.size = 2 := by rcases hop with h | h <;> rw [h] <;> rfl
  cases hoff : i.runsOff m.regs with
  | none =>
    have hroom := Instruction.runsOff_eq_none_iff.1 hoff hf
    have hreport : m.report i = [] := by
      simp only [report, if_neg hhlt, hf]
      rfl
    rw [hsize] at hroom
    rw [step_of_clear hrun hi ho hoff, hreport]
    refine ⟨by simp [hj], fun h => absurd h hj, fun _ => .inl ⟨rfl, ?_⟩⟩
    simp only [completed, i.pcAfter_of_fallsThrough _ _ hf, hsize]
    exact toNat_add_ofNat hroom
  | some f =>
    obtain ⟨-, hfault⟩ := Instruction.runsOff_eq_some_iff.1 hoff
    rw [hsize] at hfault
    rw [step_of_runsOff hrun hi ho hoff, hfault]
    exact ⟨by simp [hj], fun h => absurd h hj, fun _ => .inr ⟨rfl, i.pc_regsAfter _ _⟩⟩

/-- A branch jumps if and only if it does not fall through. -/
theorem branches_step (hrun : m.state = .running) (hi : m.fetch = .ok i)
    (hop : i.opcode = .jeq ∨ i.opcode = .jne) (ha : i.a.toNat < 8)
    (hjump : i.fallsThrough m.regs.fl = false ↔ jumping) :
    m.Branches i jumping (m.step refusal) := by
  have ho : i.obstacle m.regs refusal = none := Instruction.obstacle_of_branch hop ha
  cases hf : i.fallsThrough m.regs.fl with
  | false => exact branches_taken hrun hi hop ho hf (hjump.1 hf)
  | true =>
    refine branches_passed hrun hi hop ho hf fun hj => ?_
    rw [hjump.2 hj] at hf
    cases hf

end Machine

/-- The flags always record the last comparison, and the branches follow it. -/
theorem flags_record_last_comparison (mem : Memory) (refusals : List (UInt8 → Option String)) :
    let start : Machine := { Machine.powerOn with mem }
    let m := start.attempt refusals
    let last := start.lastCompared? refusals
    m.regs.fl = .ofLast last ∧
    ∀ refusal i, m.state = .running → m.fetch = .ok i → i.a.toNat < 8 →
      (i.opcode = .jeq → m.Branches i (∃ x, last = some (x, x)) (m.step refusal)) ∧
      (i.opcode = .jne →
        m.Branches i (last = none ∨ ∃ x y, last = some (x, y) ∧ x ≠ y) (m.step refusal)) := by
  intro start m last
  have hfl : m.regs.fl = .ofLast last := Machine.fl_attempt rfl refusals
  have hequal : m.regs.fl.isEqual = true ↔ ∃ x, last = some (x, x) := by
    rw [hfl, Flags.isEqual_ofLast]
  refine ⟨hfl, fun refusal i hrun hi ha => ⟨fun hop => ?_, fun hop => ?_⟩⟩
  · refine Machine.branches_step hrun hi (.inl hop) ha ?_
    rw [← hequal, Instruction.fallsThrough, hop, Bool.not_eq_false']
  · refine Machine.branches_step hrun hi (.inr hop) ha ?_
    rw [Instruction.fallsThrough, hop, ← Bool.not_eq_true, hequal]
    rcases last with _ | ⟨x, y⟩
    · simp
    · simp [eq_comm]

/-- A comparison of two registers that differ, and a branch behind it. -/
def comparing : Memory :=
  Memory.blank.store 0 [0xA7, 0, 7, 0x56, 1]

theorem branch_comparing :
    let m := Machine.attempt { Machine.powerOn with mem := comparing } [fun _ => none]
    m.state = .running ∧ m.fetch = .ok ⟨.jne, 1, 0⟩ ∧ m.regs.fl = ⟨0b100⟩ ∧
      ∃ target, .jumped .jne target ∈ (m.step fun _ => none).log := by
  obtain ⟨hfl, hbranch⟩ := flags_record_last_comparison comparing [fun _ => none]
  have hrun : (Machine.attempt { Machine.powerOn with mem := comparing }
      [fun _ => none]).state = .running := by
    decide +kernel
  have hfetch : (Machine.attempt { Machine.powerOn with mem := comparing }
      [fun _ => none]).fetch = .ok ⟨.jne, 1, 0⟩ :=
    Machine.fetch_eq_ok_iff.2 (by decide +kernel)
  have hlast : Machine.lastCompared? { Machine.powerOn with mem := comparing } [fun _ => none] =
      some (0, 0xF4) := by
    decide +kernel
  rw [hlast] at hfl hbranch
  have hne := (hbranch (fun _ => none) _ hrun hfetch (by decide)).2 rfl
  exact ⟨hrun, hfetch, hfl.trans (by decide +kernel),
    hne.reported.2 (.inr ⟨0, 0xF4, rfl, by decide⟩)⟩

end LS8
