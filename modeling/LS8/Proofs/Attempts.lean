import LS8.Proofs.StepOutcome
/-! Steps that are tried one after another, whether they complete or fail, each with a printer of
its own. `attempt` goes on from where each step leaves the machine and `attempts` keeps what each of
them began with. The run loops do nothing but try steps: `Run.printers` are the printers of those
that a run tries, and what a run leaves is what these steps leave (`Run.extend_eq`), so a statement
about every machine that some steps lead to is one about every machine that some runs lead to. -/

namespace LS8

/-- A step that is tried: the machine before it, and its printer. -/
structure Attempt where
  before : Machine
  refusal : UInt8 → Option String

namespace Attempt

def step (a : Attempt) : Step :=
  a.before.step a.refusal

def completed? (a : Attempt) : Option Instruction :=
  a.step.result.toOption

end Attempt

namespace Machine

/-- The instruction that a step tries to carry out, if it gets so far. -/
def tries? (m : Machine) : Option Instruction :=
  match m.state with
  | .halted => none
  | .running => m.fetch.toOption

theorem tries?_eq_some_iff {m : Machine} {i : Instruction} :
    m.tries? = some i ↔ m.state = .running ∧ m.fetch = .ok i := by
  cases hs : m.state with
  | halted => simp [tries?, hs]
  | running => cases hi : m.fetch <;> simp [tries?, hs, hi, Except.toOption]

/-- A step by what it tries: nothing, an instruction that cannot be carried out, one after which
memory ends, or one that is completed. -/
theorem step_tries (refusal : UInt8 → Option String) (m : Machine) :
    (m.tries? = none ∧ ∃ f, m.step refusal = ⟨.error f, m, none, []⟩) ∨
    ∃ i, m.tries? = some i ∧
      ((∃ f, i.obstacle m.regs refusal = some f ∧
        m.step refusal = ⟨.error f, m, none, [.fetched m.view i]⟩) ∨
      (i.obstacle m.regs refusal = none ∧ ∃ f, i.runsOff m.regs = some f ∧
        m.step refusal = ⟨.error f, m.worked i, i.printed m.regs, [.fetched m.view i]⟩) ∨
      (i.obstacle m.regs refusal = none ∧ i.runsOff m.regs = none ∧
        m.step refusal =
          ⟨.ok i, m.completed i, i.printed m.regs, .fetched m.view i :: m.report i⟩)) := by
  rcases step_cases refusal m with ⟨hs, h⟩ | ⟨hs, hop, h⟩ | ⟨hs, i, hi, h⟩
  · exact .inl ⟨by simp only [tries?, hs], _, h⟩
  · exact .inl ⟨by simp only [tries?, hs, fetch_eq, hop]; rfl, _, h⟩
  · exact .inr ⟨i, tries?_eq_some_iff.2 ⟨hs, hi⟩, h⟩

/-- The machine after as many steps as there are printers. A step that fails is no end: the next
one is taken from where it left the machine. -/
def attempt (m : Machine) (refusals : List (UInt8 → Option String)) : Machine :=
  refusals.foldl (fun m refusal => (m.step refusal).machine) m

def attempts (m : Machine) : List (UInt8 → Option String) → List Attempt
  | [] => []
  | refusal :: refusals => ⟨m, refusal⟩ :: (m.step refusal).machine.attempts refusals

variable (m : Machine) (refusals more : List (UInt8 → Option String))
  (refusal : UInt8 → Option String)

theorem attempt_append : m.attempt (refusals ++ more) = (m.attempt refusals).attempt more :=
  List.foldl_append

theorem attempt_concat :
    m.attempt (refusals ++ [refusal]) = ((m.attempt refusals).step refusal).machine :=
  attempt_append ..

theorem attempts_append :
    m.attempts (refusals ++ more) = m.attempts refusals ++ (m.attempt refusals).attempts more := by
  induction refusals generalizing m with
  | nil => rfl
  | cons refusal refusals ih => rw [List.cons_append, attempts, ih, attempts, List.cons_append]; rfl

theorem attempts_concat :
    m.attempts (refusals ++ [refusal]) = m.attempts refusals ++ [⟨m.attempt refusals, refusal⟩] :=
  attempts_append ..

end Machine

namespace Run

/-- The printers of the steps that a run tries in at most the given number of turns. -/
def printers (c : Console) : Nat → Run → List (UInt8 → Option String)
  | 0, _ => []
  | n + 1, r =>
    if r.isOver || c.stop r.count r.printed then []
    else c.refusal r.printed :: printers c n (r.advance c)

def attempts (c : Console) (n : Nat) (r : Run) : List Attempt :=
  r.machine.attempts (r.printers c n)

def absorbAll (r : Run) (as : List Attempt) : Run :=
  as.foldl (fun r a => r.absorb a.step) r

variable {c : Console} {r : Run}

theorem printers_of_isOver (h : r.isOver) (n : Nat) : r.printers c n = [] := by
  cases n with
  | zero => rfl
  | succ n => simp [printers, h]

/-- A run takes the steps that it tries, and then it may be interrupted. -/
theorem extend_eq (c : Console) (n : Nat) (r : Run) :
    r.extend c n = r.absorbAll (r.attempts c n) ∨
      r.extend c n = (r.absorbAll (r.attempts c n)).interrupt := by
  induction n generalizing r with
  | zero => exact .inl rfl
  | succ n ih =>
    cases hover : r.isOver with
    | true =>
      left
      rw [extend_of_isOver hover, attempts, printers_of_isOver hover]
      rfl
    | false =>
      rw [extend_succ hover]
      cases hstop : c.stop r.count r.printed with
      | true =>
        have hinterrupted : r.interrupt.isOver := by simp [isOver, interrupt]
        right
        rw [advance_of_stop hstop, extend_of_isOver hinterrupted, attempts, printers, hstop,
          Bool.or_true]
        rfl
      | false =>
        have hadvance := advance_of_not_stop hstop
        have hattempts : r.attempts c (n + 1) =
            ⟨r.machine, c.refusal r.printed⟩ :: (r.advance c).attempts c n := by
          rw [attempts, printers, hover, hstop, attempts, hadvance, machine_absorb]
          rfl
        have hfirst : r.absorb (Attempt.step ⟨r.machine, c.refusal r.printed⟩) = r.advance c :=
          hadvance.symm
        rw [hattempts, absorbAll, List.foldl_cons, hfirst]
        exact ih _

theorem machine_absorbAll (refusals : List (UInt8 → Option String)) :
    (r.absorbAll (r.machine.attempts refusals)).machine = r.machine.attempt refusals := by
  induction refusals generalizing r with
  | nil => rfl
  | cons refusal refusals ih =>
    have h := ih (r := r.absorb (r.machine.step refusal))
    rw [machine_absorb] at h
    exact h

theorem printed_absorbAll (as : List Attempt) : (r.absorbAll as).printed =
    r.printed ++ as.filterMap (·.step.printed) := by
  induction as generalizing r with
  | nil => simp [absorbAll]
  | cons a as ih =>
    rw [absorbAll, List.foldl_cons]
    refine (ih (r := r.absorb a.step)).trans ?_
    rw [printed_absorb]
    cases hp : a.step.printed <;> simp [hp]

theorem machine_extend (c : Console) (n : Nat) (r : Run) :
    (r.extend c n).machine = r.machine.attempt (r.printers c n) := by
  rw [← machine_absorbAll]
  rcases r.extend_eq c n with h | h
  · rw [h, attempts]
  · rw [h]
    rfl

theorem printed_extend (c : Console) (n : Nat) (r : Run) :
    (r.extend c n).printed = r.printed ++ (r.attempts c n).filterMap (·.step.printed) := by
  rw [← printed_absorbAll]
  rcases r.extend_eq c n with h | h
  · rw [h]
  · rw [h]
    rfl

end Run

end LS8
