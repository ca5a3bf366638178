import LS8.Proofs.StepOutcome
/-! Executions: completed steps one after another, each with a printer of its own. A turn keeps the
machine before and after, so that a statement about every step of an execution is a statement about
its turns, and an execution may be cut at any of them (`Execution.at_turn`). -/

namespace LS8

structure Turn where
  before : Machine
  instr : Instruction
  after : Machine

def Turn.Completes (t : Turn) : Prop :=
  ∃ refusal, (t.before.step refusal).result = .ok t.instr ∧
    (t.before.step refusal).machine = t.after

def Machine.turn (m : Machine) (i : Instruction) : Turn :=
  ⟨m, i, m.completed i⟩

/-- `Execution m ts n`: the turns `ts`, in this order, lead from `m` to `n`. -/
inductive Execution (m : Machine) : List Turn → Machine → Prop
  | nil : Execution m [] m
  | snoc {ts : List Turn} {t : Turn} :
      Execution m ts t.before → t.Completes → Execution m (ts ++ [t]) t.after

theorem Turn.Completes.ready {t : Turn} (h : t.Completes) : t.instr.Ready t.before.regs := by
  obtain ⟨refusal, hi, -⟩ := h
  obtain ⟨-, -, ho, hoff, -⟩ := Machine.step_of_ok hi
  exact (Instruction.ready_and_taken_iff.2 ⟨ho, hoff⟩).1

theorem Turn.Completes.after_eq {t : Turn} (h : t.Completes) :
    t.after = t.before.completed t.instr := by
  obtain ⟨refusal, hi, hm⟩ := h
  obtain ⟨-, -, -, -, hs⟩ := Machine.step_of_ok hi
  rw [← hm, hs]

theorem Execution.at_turn {m n : Machine} {ts : List Turn} (h : Execution m ts n)
    {pre post : List Turn} {t : Turn} (hts : ts = pre ++ t :: post) :
    Execution m pre t.before ∧ t.Completes := by
  induction h generalizing post with
  | nil => simp at hts
  | @snoc us u hus hu ih =>
    rcases List.eq_nil_or_concat post with rfl | ⟨post, v, rfl⟩
    · obtain ⟨rfl, hut⟩ := List.append_inj' hts rfl
      cases hut
      exact ⟨hus, hu⟩
    · rw [List.concat_eq_append, ← List.cons_append, ← List.append_assoc] at hts
      exact ih (List.append_inj' hts rfl).1

end LS8
