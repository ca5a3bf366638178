import LS8.Proofs.Attempts
import LS8.Proofs.Resumption
/-! What a step has to do with its printer. It offers at most one value, that of the register that a
print instruction names (`Machine.offers?`), and the printer's answer to that value is all that it
depends on (`step_of_agree`): a value that is taken is printed, and one that is refused leaves the
machine as it was. So the output of a run is a line for each value that was offered and taken. -/

namespace LS8

theorem Instruction.obstacle_of_prn {i : Instruction} {r : Registers}
    {refusal : UInt8 → Option String} (h : i.opcode = .prn) :
    i.obstacle r refusal = i.badRegister.or ((refusal (r.value i.a)).map .output) := by
  have hstack : i.stackLimit r = none := by simp [stackLimit, h]
  have hprinter : i.refused r refusal = (refusal (r.value i.a)).map .output := by
    simp [refused, printed, h]
  rw [obstacle, noReturn_of_ne (by simp [h]), hstack, hprinter, Option.none_or, Option.none_or]

namespace Machine

/-- The value that a step offers to its printer. -/
def offers? (m : Machine) : Option UInt8 :=
  m.tries?.bind fun i =>
    if i.opcode = .prn ∧ i.a.toNat < 8 then some (m.regs.value i.a) else none

variable {m : Machine} {i : Instruction} {v : UInt8} {refusal refusal' : UInt8 → Option String}

theorem offers?_of_tries (hi : m.tries? = some i) : m.offers? =
    if i.opcode = .prn ∧ i.badRegister = none then some (m.regs.value i.a) else none := by
  have hregs : i.opcode = .prn ∧ i.badRegister = none ↔ i.opcode = .prn ∧ i.a.toNat < 8 := by
    refine and_congr_right fun h => ?_
    rw [Instruction.badRegister_eq_none_iff, Instruction.registerOperands, h]
    simp
  simp only [offers?, hi, Option.bind_some, hregs]

theorem offers?_eq_some_iff : m.offers? = some v ↔
    ∃ i, m.tries? = some i ∧ i.opcode = .prn ∧ i.badRegister = none ∧ m.regs.value i.a = v := by
  cases hi : m.tries? with
  | none => simp [offers?, hi]
  | some i =>
    rw [offers?_of_tries hi]
    simp [and_assoc]

/-- What keeps an instruction from being carried out is the same for printers that agree on what is
offered. -/
theorem obstacle_of_agree (hi : m.tries? = some i)
    (h : ∀ v, m.offers? = some v → refusal v = refusal' v) :
    i.obstacle m.regs refusal = i.obstacle m.regs refusal' := by
  by_cases hop : i.opcode = .prn
  · rw [Instruction.obstacle_of_prn hop, Instruction.obstacle_of_prn hop]
    cases hbad : i.badRegister with
    | some f => rfl
    | none => rw [h _ (offers?_eq_some_iff.2 ⟨i, hi, hop, hbad, rfl⟩)]
  · have hnone (refusal : UInt8 → Option String) : i.refused m.regs refusal = none :=
      Instruction.refused_eq_none_iff.2 fun h => absurd h hop
    rw [Instruction.obstacle, Instruction.obstacle, hnone, hnone]

/-- A step depends on its printer only by the answer to what it offers. -/
theorem step_of_agree (h : ∀ v, m.offers? = some v → refusal v = refusal' v) :
    m.step refusal = m.step refusal' := by
  cases hs : m.state with
  | halted => simp only [step, hs]
  | running =>
    cases hi : m.fetch with
    | error f => simp only [step, hs, hi]
    | ok i =>
      have ho := obstacle_of_agree (tries?_eq_some_iff.2 ⟨hs, hi⟩) h
      simp only [step, hs, hi, Instruction.execute_eq, ho]

/-- A value that is refused ends the step before it has changed anything. -/
theorem step_of_refused {reason : String} (h : m.offers? = some v) (hr : refusal v = some reason) :
    ∃ i, m.fetch = .ok i ∧
      m.step refusal = ⟨.error (.output reason), m, none, [.fetched m.view i]⟩ := by
  obtain ⟨i, htry, hop, hbad, rfl⟩ := offers?_eq_some_iff.1 h
  obtain ⟨hrun, hi⟩ := tries?_eq_some_iff.1 htry
  have ho : i.obstacle m.regs refusal = some (.output reason) := by
    rw [Instruction.obstacle_of_prn hop, hbad, hr]
    rfl
  exact ⟨i, hi, step_of_obstacle hrun hi ho⟩

/-- An instruction that was carried out has printed what it offered. -/
theorem printed_of_carried (hi : m.tries? = some i)
    (ho : i.obstacle m.regs refusal = none) :
    i.printed m.regs = m.offers?.filter fun v => (refusal v).isNone := by
  obtain ⟨hbad, -, -, hrefused⟩ := Instruction.obstacle_eq_none_iff.1 ho
  rw [offers?_of_tries hi, Instruction.printed]
  by_cases hop : i.opcode = .prn
  · have htaken : refusal (m.regs.value i.a) = none :=
      Instruction.refused_eq_none_iff.1 hrefused hop
    rw [if_pos hop, if_pos ⟨hop, hbad⟩, Option.filter_some, htaken]
    rfl
  · simp [hop]

/-- A step prints what it offers unless that is refused. -/
theorem printed_step : (m.step refusal).printed = m.offers?.filter fun v => (refusal v).isNone := by
  rcases step_tries refusal m with ⟨hi, f, h⟩ |
    ⟨i, hi, ⟨f, ho, h⟩ | ⟨ho, f, -, h⟩ | ⟨ho, -, h⟩⟩
  · have hnone : m.offers? = none := by rw [offers?, hi]; rfl
    rw [h, hnone]
    rfl
  · rw [h, eq_comm, Option.filter_eq_none_iff]
    intro v hv
    -- had the printer taken the value, nothing would have kept the instruction from printing it
    obtain ⟨j, hj, hop, hbad, rfl⟩ := offers?_eq_some_iff.1 hv
    rw [hi] at hj
    cases hj
    rw [Instruction.obstacle_of_prn hop, hbad, Option.none_or] at ho
    obtain ⟨reason, hr, -⟩ := Option.map_eq_some_iff.1 ho
    simp [hr]
  · rw [h]
    exact printed_of_carried hi ho
  · rw [h]
    exact printed_of_carried hi ho

end Machine

/-- The line that a step prints: the value it offers, in decimal digits, if its printer takes it. -/
def Attempt.line? (a : Attempt) : Option String :=
  (a.before.offers?.filter fun v => (a.refusal v).isNone).map fun v => toString v.toNat ++ "\n"

namespace Run

variable (c : Console) (n : Nat) (r : Run)

theorem size_printed_le_extend : r.printed.size ≤ (r.extend c n).printed.size := by
  have hsize := congrArg (·.toList.length) (r.printed_extend c n)
  simp only [Array.toList_appendList, List.length_append, Array.length_toList] at hsize
  omega

/-- The lines of a run are those of its steps. -/
theorem lines_extend :
    (r.extend c n).lines = r.lines ++ (r.attempts c n).filterMap Attempt.line? := by
  have hline : Attempt.line? = fun a => a.step.printed.map fun v => toString v.toNat ++ "\n" := by
    funext a
    rw [Attempt.line?, Attempt.step, Machine.printed_step]
  rw [lines, printed_extend, lines, Array.toList_appendList, List.map_append, List.map_filterMap,
    hline]

end Run

end LS8
