import Mathlib.Data.List.Forall2
import LS8.Proofs.Attempts
import LS8.Proofs.Printing
import LS8.Proofs.Slices
/-! No instruction reads the books. Machines that agree in registers, memory and state take the same
step, whatever they have counted (`Machine.Alike.step`), so they do alike for as long as one likes,
in steps that are tried one after another and in runs. A machine that finds itself in registers and
memory where it was before is such a pair with its own past, so it repeats what it did in between
and never halts, unless it is the halt that has left everything as it was. -/

namespace LS8

/-- Machines that differ at most in their books. -/
structure Machine.Alike (m n : Machine) : Prop where
  regs : m.regs = n.regs
  mem : m.mem = n.mem
  state : m.state = n.state

/-- Steps that come to the same: the instruction or the fault, the value printed, and machines that
differ at most in their books. -/
structure Step.Alike (s t : Step) : Prop where
  result : s.result = t.result
  printed : s.printed = t.printed
  machine : s.machine.Alike t.machine

namespace Machine

variable {m n : Machine} {i : Instruction} {refusal : UInt8 → Option String}

theorem Alike.fetch_eq (h : m.Alike n) : m.fetch = n.fetch := by
  rw [Machine.fetch_eq, Machine.fetch_eq, h.regs, h.mem]

theorem Alike.worked (h : m.Alike n) (i : Instruction) : (m.worked i).Alike (n.worked i) where
  regs := by rw [Machine.worked, Machine.worked, h.regs, h.mem]
  mem := by rw [Machine.worked, Machine.worked, h.regs, h.mem]
  state := h.state

theorem Alike.completed (h : m.Alike n) (i : Instruction) :
    (m.completed i).Alike (n.completed i) where
  regs := by rw [Machine.completed, Machine.completed, h.regs, h.mem]
  mem := by rw [Machine.completed, Machine.completed, h.regs, h.mem]
  state := rfl

/-- A step takes no notice of the books. -/
theorem Alike.step (h : m.Alike n) (refusal : UInt8 → Option String) :
    (m.step refusal).Alike (n.step refusal) := by
  have hregs := h.regs
  have hmem := h.mem
  have hstate := h.state
  have hfetch := h.fetch_eq
  rcases step_cases refusal m with ⟨hs, hstep⟩ | ⟨hs, hop, hstep⟩ |
    ⟨hs, i, hi, ⟨f, ho, hstep⟩ | ⟨ho, f, hoff, hstep⟩ | ⟨ho, hoff, hstep⟩⟩
  all_goals rw [hstate] at hs
  · rw [hstep, step_of_halted hs]
    exact ⟨rfl, rfl, h⟩
  · rw [hregs, hmem] at hop hstep
    rw [hstep, step_of_unknown hs hop]
    exact ⟨rfl, rfl, h⟩
  all_goals rw [hfetch] at hi; rw [hregs] at ho
  · rw [hstep, step_of_obstacle hs hi ho]
    exact ⟨rfl, rfl, h⟩
  · rw [hregs] at hoff
    rw [hstep, step_of_runsOff hs hi ho hoff, hregs]
    exact ⟨rfl, rfl, h.worked i⟩
  · rw [hregs] at hoff
    rw [hstep, step_of_clear hs hi ho hoff, hregs]
    exact ⟨rfl, rfl, h.completed i⟩

theorem length_attempts (m : Machine) (refusals : List (UInt8 → Option String)) :
    (m.attempts refusals).length = refusals.length := by
  induction refusals generalizing m with
  | nil => rfl
  | cons refusal refusals ih => rw [Machine.attempts, List.length_cons, ih, List.length_cons]

/-- By induction on the steps that are tried, all of them come to the same. -/
theorem Alike.attempts (h : m.Alike n) (refusals : List (UInt8 → Option String)) :
    List.Forall₂ (fun a b => a.step.Alike b.step) (m.attempts refusals) (n.attempts refusals) := by
  induction refusals generalizing m n with
  | nil => exact .nil
  | cons refusal refusals ih => exact .cons (h.step refusal) (ih (h.step refusal).machine)

theorem Alike.attempt (h : m.Alike n) (refusals : List (UInt8 → Option String)) :
    (m.attempt refusals).Alike (n.attempt refusals) := by
  induction refusals generalizing m n with
  | nil => exact h
  | cons refusal refusals ih => exact ih (h.step refusal).machine

/-- The counter moves by one with each step that completes. -/
theorem cycles_step (refusal : UInt8 → Option String) (m : Machine) :
    (m.step refusal).machine.cycles =
      m.cycles + .ofNat (m.step refusal).result.toOption.toList.length := by
  rcases step_cases refusal m with ⟨-, h⟩ | ⟨-, -, h⟩ | ⟨-, i, -, ⟨f, -, h⟩ | ⟨-, f, -, h⟩ | ⟨-, -, h⟩⟩
  all_goals rw [h]
  · exact (UInt64.add_zero _).symm
  · exact (UInt64.add_zero _).symm
  · exact (UInt64.add_zero _).symm
  · exact (UInt64.add_zero _).symm
  · rfl

/-- By induction on the steps that are tried. -/
theorem cycles_attempt (m : Machine) (refusals : List (UInt8 → Option String)) :
    (m.attempt refusals).cycles =
      m.cycles + .ofNat ((m.attempts refusals).filterMap Attempt.completed?).length := by
  induction refusals generalizing m with
  | nil => exact (UInt64.add_zero _).symm
  | cons refusal refusals ih =>
    have hfirst : Attempt.completed? ⟨m, refusal⟩ = (m.step refusal).result.toOption := rfl
    have hlength : ((m.attempts (refusal :: refusals)).filterMap Attempt.completed?).length =
        (m.step refusal).result.toOption.toList.length +
          (((m.step refusal).machine.attempts refusals).filterMap Attempt.completed?).length := by
      rw [attempts, List.filterMap_cons, hfirst]
      cases (m.step refusal).result <;> simp [Except.toOption, Nat.add_comm]
    have hrest : m.attempt (refusal :: refusals) = (m.step refusal).machine.attempt refusals := rfl
    rw [hlength, hrest, ih, cycles_step, UInt64.ofNat_add, UInt64.add_assoc]

theorem toNat_cycles_attempt (m : Machine) (refusals : List (UInt8 → Option String))
    (h : m.cycles.toNat + ((m.attempts refusals).filterMap Attempt.completed?).length ≤ maxCycles) :
    (m.attempt refusals).cycles.toNat =
      m.cycles.toNat + ((m.attempts refusals).filterMap Attempt.completed?).length := by
  have hmax : maxCycles < 2 ^ 64 := by decide
  rw [cycles_attempt, UInt64.toNat_add, UInt64.toNat_ofNat']
  omega

theorem completed_eq_of_alike {as bs : List Attempt}
    (h : List.Forall₂ (fun a b => a.step.Alike b.step) as bs) :
    as.filterMap Attempt.completed? = bs.filterMap Attempt.completed? := by
  induction h with
  | nil => rfl
  | cons hab _ ih => rw [List.filterMap_cons, List.filterMap_cons, Attempt.completed?, hab.result, ih]; rfl

/-- The printers of the first `n` steps that are tried on a sink, which may know for each step
before what that one offered to it. -/
def printersOn (sink : List (Option UInt8) → UInt8 → Option String) (m : Machine) :
    Nat → List (UInt8 → Option String)
  | 0 => []
  | n + 1 => sink [] ::
    (m.step (sink [])).machine.printersOn (fun offered => sink (m.offers? :: offered)) n

theorem length_printersOn (sink : List (Option UInt8) → UInt8 → Option String) (m : Machine)
    (k : Nat) : (m.printersOn sink k).length = k := by
  induction k generalizing m sink with
  | zero => rfl
  | succ k ih => rw [printersOn, List.length_cons, ih]

theorem Alike.offers?_eq (h : m.Alike n) : m.offers? = n.offers? := by
  rw [offers?, offers?, tries?, tries?, h.state, h.fetch_eq, h.regs]

theorem Alike.printersOn (h : m.Alike n) (sink : List (Option UInt8) → UInt8 → Option String)
    (k : Nat) : m.printersOn sink k = n.printersOn sink k := by
  induction k generalizing m n sink with
  | zero => rfl
  | succ k ih =>
    rw [Machine.printersOn, Machine.printersOn, h.offers?_eq, ih (h.step (sink [])).machine]

end Machine

namespace Run

/-- Runs that have done the same so far, on machines that differ at most in their books. -/
structure Alike (r s : Run) : Prop where
  machine : r.machine.Alike s.machine
  count : r.count = s.count
  printed : r.printed = s.printed
  ending : r.ending = s.ending

variable {r s : Run}

theorem Alike.isOver_eq (h : r.Alike s) : r.isOver = s.isOver := by
  rw [isOver, isOver, Machine.isHalted, Machine.isHalted, h.machine.state, h.ending]

theorem Alike.advance (h : r.Alike s) (c : Console) : (r.advance c).Alike (s.advance c) := by
  have hstep := h.machine.step (c.refusal s.printed)
  rw [Run.advance, Run.advance, h.count, h.printed]
  split
  · exact ⟨h.machine, h.count, h.printed, rfl⟩
  · rw [absorb, absorb, hstep.result, hstep.printed, h.count, h.printed, h.ending]
    split
    · exact ⟨hstep.machine, rfl, rfl, rfl⟩
    · exact ⟨hstep.machine, rfl, rfl, rfl⟩

/-- By induction on the turns, whatever the printer and the button make of what they see. -/
theorem Alike.extend (h : r.Alike s) (c : Console) (n : Nat) :
    (r.extend c n).Alike (s.extend c n) := by
  induction n generalizing r s with
  | zero => exact h
  | succ n ih =>
    cases hover : s.isOver with
    | true =>
      rw [extend_of_isOver hover, extend_of_isOver (h.isOver_eq.trans hover)]
      exact h
    | false =>
      rw [extend_succ hover, extend_succ (h.isOver_eq.trans hover)]
      exact ih (h.advance c)

theorem isOver_of_le (c : Console) {j k : Nat} (h : (r.extend c k).isOver = false) (hjk : j ≤ k) :
    (r.extend c j).isOver = false := by
  obtain ⟨d, rfl⟩ := Nat.exists_eq_add_of_le hjk
  cases hover : (r.extend c j).isOver with
  | false => rfl
  | true =>
    rw [extend_add, extend_of_isOver hover, hover] at h
    cases h

end Run

namespace Machine

variable {m m' : Machine} {k : Nat} {lines : Array UInt8}

/-- A step that completes would have completed on a printer that takes everything. -/
theorem step_accepting {i : Instruction} {refusal : UInt8 → Option String}
    (h : (m.step refusal).result = .ok i) : m.step (fun _ => none) = m.step refusal := by
  refine step_of_agree fun v hv => ?_
  cases hr : refusal v with
  | none => rfl
  | some reason =>
    obtain ⟨j, -, hstep⟩ := step_of_refused hv hr
    rw [hstep] at h
    cases h

/-- Steps that complete are the turns of a run that is not over, if the machine still runs. -/
theorem extend_of_after {refusal : Array UInt8 → UInt8 → Option String}
    (h : m.after refusal k = some (m', lines)) (hrun : m'.state = .running) :
    ((Run.start m).extend .accepting k).machine = m' ∧
      ((Run.start m).extend .accepting k).isOver = false := by
  induction k generalizing m' lines with
  | zero =>
    cases h
    exact ⟨rfl, Run.isOver_eq_false_iff.2 ⟨hrun, rfl⟩⟩
  | succ k ih =>
    obtain ⟨i, m₁, lines₁, h₁, hi, rfl⟩ := after_succ h
    obtain ⟨hrun₁, -, -, -, hstep⟩ := step_of_ok hi
    obtain ⟨hmachine, hover⟩ := ih h₁ hrun₁
    have hending := (Run.isOver_eq_false_iff.1 hover).2
    have hturn : (Run.start m).extend .accepting (k + 1) =
        ((Run.start m).extend .accepting k).absorb (m₁.step (refusal lines₁)) := by
      rw [Run.extend_add, Run.extend_succ hover, Run.advance_of_not_stop rfl, hmachine]
      exact congrArg (Run.absorb _) (step_accepting hi)
    have hcompleted : ((Run.start m).extend .accepting (k + 1)).machine = m₁.completed i := by
      rw [hturn, Run.machine_absorb, hstep]
    refine ⟨hcompleted, Run.isOver_eq_false_iff.2 ⟨hcompleted ▸ hrun, ?_⟩⟩
    rw [hturn, Run.absorb, hi]
    exact hending

/-- By induction on the number of turns: those after the first `k` are turns of the same machine but
for its books. -/
theorem not_isOver_of_recurrence (hk : 0 < k)
    (hover : ((Run.start m).extend .accepting k).isOver = false)
    (halike : ((Run.start m).extend .accepting k).machine.Alike m) (n : Nat) :
    ((Run.start m).extend .accepting n).isOver = false := by
  induction n using Nat.strongRecOn with
  | ind n ih =>
    by_cases hn : n ≤ k
    · exact Run.isOver_of_le .accepting hover hn
    · obtain ⟨d, rfl⟩ := Nat.exists_eq_add_of_le (Nat.le_of_not_le hn)
      have hstart : (Run.start ((Run.start m).extend .accepting k).machine).Alike (Run.start m) :=
        ⟨halike, rfl, rfl, rfl⟩
      have hrest := (hstart.extend .accepting d).isOver_eq
      rw [Run.extend_add, Run.extend_eq_followedBy _ (Run.isOver_eq_false_iff.1 hover).2]
      exact hrest.trans (ih d (by omega))

/-- Every step from here on completes on a printer that takes everything, and a run with a limit
goes on until the limit is reached. -/
structure NeverHalts (m : Machine) : Prop where
  steps : ∀ n, ∃ m' lines, m.after (fun _ _ => none) n = some (m', lines) ∧ m'.state = .running
  runs : ∀ c : Console, (∀ lines v, c.refusal lines v = none) →
    ∀ limit : UInt64, m.cycles.toNat + limit.toNat ≤ maxCycles →
      (m.runLimited c limit).result = .ok limit.toNat ∧
        (m.runLimited c limit).machine.state = .running

theorem NeverHalts.of_not_isOver (h : ∀ n, ((Run.start m).extend .accepting n).isOver = false) :
    m.NeverHalts where
  steps n := ⟨_, _, (Follows.of_extend (h n)).steps, (Run.isOver_eq_false_iff.1 (h n)).1⟩
  runs c hc limit hroom := by
    have hrefusal : Console.accepting.refusal = c.refusal :=
      funext fun lines => funext fun v => (hc lines v).symm
    have haccepting := Console.eq_unstoppable hrefusal fun _ _ => rfl
    rw [runLimited_eq hroom, ← haccepting]
    exact ⟨(Follows.of_extend (h _)).result, (Run.isOver_eq_false_iff.1 (h _)).1⟩

/-- A machine that finds itself where it was before never halts. -/
theorem neverHalts_of_recurrence {refusal : Array UInt8 → UInt8 → Option String} (hk : 0 < k)
    (h : m.after refusal k = some (m', lines)) (hregs : m'.regs = m.regs) (hmem : m'.mem = m.mem)
    (hrun : m'.state = .running) : m'.NeverHalts := by
  obtain ⟨hmachine, hover⟩ := extend_of_after h hrun
  have hbegun := Run.isOver_of_le .accepting hover (Nat.zero_le k)
  have halike : m'.Alike m := ⟨hregs, hmem, hrun.trans (Run.isOver_eq_false_iff.1 hbegun).1.symm⟩
  have hstart : (Run.start m').Alike (Run.start m) := ⟨halike, rfl, rfl, rfl⟩
  refine .of_not_isOver fun n => ?_
  rw [(hstart.extend .accepting n).isOver_eq]
  exact not_isOver_of_recurrence hk hover (hmachine.symm ▸ halike) n

/-- A halt changes neither registers nor memory. -/
theorem completed_of_hlt {i : Instruction} (h : i.opcode = .hlt) :
    (m.completed i).regs = m.regs ∧ (m.completed i).mem = m.mem := by
  obtain ⟨op, a, b⟩ := i
  cases h
  exact ⟨rfl, rfl⟩

/-- A machine that finds itself where it was before but has halted has taken one step, the halt. -/
theorem halt_of_recurrence {refusal : Array UInt8 → UInt8 → Option String} (hk : 0 < k)
    (h : m.after refusal k = some (m', lines)) (hregs : m'.regs = m.regs) (hmem : m'.mem = m.mem)
    (hhalt : m'.state = .halted) : k = 1 ∧ ∃ i, m.fetch = .ok i ∧ i.opcode = .hlt := by
  obtain ⟨k, rfl⟩ := Nat.exists_eq_add_one_of_ne_zero (Nat.ne_of_gt hk)
  obtain ⟨i, m₁, lines₁, h₁, hi, rfl⟩ := after_succ h
  obtain ⟨hrun, hfetch, -, -, -⟩ := step_of_ok hi
  have hop : i.opcode = .hlt := by
    by_contra hne
    simp [completed, hne] at hhalt
  obtain ⟨hregs', hmem'⟩ := completed_of_hlt (m := m₁) hop
  rw [hregs'] at hregs
  rw [hmem'] at hmem
  refine ⟨?_, i, ?_, hop⟩
  · by_contra hne
    -- before the halt the machine was already where it had been, so it would never have halted
    have hnever := neverHalts_of_recurrence (by omega) h₁ hregs hmem hrun
    obtain ⟨m₂, lines₂, hnext, hrun₂⟩ := hnever.steps 1
    obtain ⟨j, m₃, lines₃, hnone, hj, rfl⟩ := after_succ hnext
    cases hnone
    rw [step_accepting hi, hi] at hj
    cases hj
    rw [hhalt] at hrun₂
    cases hrun₂
  · rw [fetch_eq, ← hregs, ← hmem, ← fetch_eq, hfetch]

end Machine

/-- The books have no influence on what a machine does, so a configuration that occurs again occurs
again and again. -/
theorem books_have_no_influence :
    (∀ m₁ m₂ : Machine, m₁.Alike m₂ →
      ∀ (sink : List (Option UInt8) → UInt8 → Option String) (n : Nat),
        let tried₁ := m₁.attempts (m₁.printersOn sink n)
        let tried₂ := m₂.attempts (m₂.printersOn sink n)
        let after₁ := m₁.attempt (m₁.printersOn sink n)
        let after₂ := m₂.attempt (m₂.printersOn sink n)
        let completed := (tried₁.filterMap Attempt.completed?).length
        tried₁.length = n ∧
        List.Forall₂ (fun a b => a.step.Alike b.step) tried₁ tried₂ ∧
        after₁.Alike after₂ ∧
        (m₁.cycles.toNat + completed ≤ Machine.maxCycles →
          after₁.cycles.toNat = m₁.cycles.toNat + completed) ∧
        (m₂.cycles.toNat + completed ≤ Machine.maxCycles →
          after₂.cycles.toNat = m₂.cycles.toNat + completed)) ∧
    ∀ (m m' : Machine) (refusal : Array UInt8 → UInt8 → Option String) (k : Nat)
      (lines : Array UInt8), 0 < k → m.after refusal k = some (m', lines) →
      m'.regs = m.regs → m'.mem = m.mem →
        (m'.state = .running → m'.NeverHalts) ∧
        (m'.state = .halted → k = 1 ∧ ∃ i, m.fetch = .ok i ∧ i.opcode = .hlt) := by
  refine ⟨fun m₁ m₂ halike sink n => ?_, fun m m' refusal k lines hk h hregs hmem => ?_⟩
  · intro tried₁ tried₂ after₁ after₂ completed
    have hprinters : m₂.printersOn sink n = m₁.printersOn sink n := (halike.printersOn sink n).symm
    have htried : tried₂ = m₂.attempts (m₁.printersOn sink n) := by rw [← hprinters]
    have hafter : after₂ = m₂.attempt (m₁.printersOn sink n) := by rw [← hprinters]
    have hsteps : List.Forall₂ (fun a b => a.step.Alike b.step) tried₁ tried₂ := by
      rw [htried]
      exact halike.attempts _
    have hcompleted : completed = (tried₂.filterMap Attempt.completed?).length :=
      congrArg List.length (Machine.completed_eq_of_alike hsteps)
    refine ⟨?_, hsteps, ?_, m₁.toNat_cycles_attempt _, ?_⟩
    · rw [Machine.length_attempts, Machine.length_printersOn]
    · rw [hafter]
      exact halike.attempt _
    · rw [hcompleted]
      exact m₂.toNat_cycles_attempt _
  · exact ⟨Machine.neverHalts_of_recurrence hk h hregs hmem,
      Machine.halt_of_recurrence hk h hregs hmem⟩

/-- A machine about to jump to where it is. -/
def Machine.circling : Machine :=
  { powerOn with mem := Memory.blank.store 0 [0x54, 0] }

/-- The same machine with other books. -/
def Machine.circlingLate : Machine :=
  { circling with cycles := 1000, last := some ⟨.jmp, 0, 0⟩ }

theorem circling_never_halts :
    Machine.circling.Alike Machine.circlingLate ∧
      (Machine.circlingLate.attempt
        (Machine.circlingLate.printersOn (fun _ _ => none) 3)).cycles.toNat = 1003 ∧
      ∃ m', Machine.circling.after (fun _ _ => none) 1 = some (m', #[]) ∧ m'.cycles = 1 ∧
        (m'.runLimited .accepting 0xFFFFFFFFFFFFFFFE).result = .ok 0xFFFFFFFFFFFFFFFE := by
  obtain ⟨hpair, hagain⟩ := books_have_no_influence
  have halike : Machine.circling.Alike Machine.circlingLate := ⟨rfl, rfl, rfl⟩
  obtain ⟨-, -, -, -, hlate⟩ := hpair _ _ halike (fun _ _ => none) 3
  have hcompleted : ((Machine.circling.attempts
      (Machine.circling.printersOn (fun _ _ => none) 3)).filterMap Attempt.completed?).length =
        3 := by
    decide +kernel
  rw [hcompleted] at hlate
  have hnever := (hagain Machine.circling (Machine.circling.completed ⟨.jmp, 0, 0⟩) (fun _ _ => none)
    1 #[] Nat.one_pos rfl rfl rfl).1 rfl
  exact ⟨halike, hlate (by decide), _, rfl, rfl,
    (hnever.runs .accepting (fun _ _ => rfl) 0xFFFFFFFFFFFFFFFE (by decide)).1⟩

end LS8
