import LS8.Proofs.StepOutcome
/-! The run loops are the step taken again and again. `after` takes steps with no loop around them;
`Stops` says at which number of them a run has to end, by the state of the machine, the cycle counter,
the stop button or a fault. A run ends at the least such number, with the machine and the lines that
the steps left, and the cycle counter has room for each of them. -/

namespace LS8

namespace Machine

/-- The machine and the printed lines after `k` steps, none where one of the steps fails. -/
def after (refusal : Array UInt8 → UInt8 → Option String) (m : Machine) :
    Nat → Option (Machine × Array UInt8)
  | 0 => some (m, #[])
  | k + 1 => (after refusal m k).bind fun (m', lines) =>
    let s := m'.step (refusal lines)
    match s.result with
    | .ok _ => some (s.machine, lines ++ s.printed.toList)
    | .error _ => none

/-- The cycle count at which a run is cut off: its limit above the count it began with, or the
largest count if that is less. -/
def ceiling (m : Machine) (limit : Option UInt64) : Nat :=
  limit.elim maxCycles fun max => min maxCycles (m.cycles.toNat + max.toNat)

end Machine

section

variable (c : Console) (m : Machine) (limit : Option UInt64)

/-- A run may not go on after `k` steps: the machine is not running, the count is used up or the
button is found pressed. -/
def Quiet (k : Nat) (m' : Machine) (lines : Array UInt8) : Prop :=
  m'.state ≠ .running ∨ m.ceiling limit ≤ m.cycles.toNat + k ∨ c.stop k lines = true

def Stops (k : Nat) : Prop :=
  ∃ m' lines, m.after c.refusal k = some (m', lines) ∧
    (Quiet c m limit k m' lines ∨ ∃ f, (m'.step (c.refusal lines)).result = .error f)

/-- What a run gives that ends after `k` steps: their number where it may not go on, else the fault
of the next step, the machine as that step left it and what it printed. -/
structure Ends (k : Nat) (m' : Machine) (lines : Array UInt8) (r : Run) : Prop where
  count : r.count = k
  quiet : Quiet c m limit k m' lines →
    r.result = .ok k ∧ r.machine = m' ∧ r.printed = lines
  failed : ¬ Quiet c m limit k m' lines →
    ∃ f, (m'.step (c.refusal lines)).result = .error f ∧ r.result = .error f ∧
      r.machine = (m'.step (c.refusal lines)).machine ∧
      r.printed = lines ++ (m'.step (c.refusal lines)).printed.toList

/-- A run ends at the least number of steps from `k` to `k + n` at which it has to. -/
def EndsFrom (k n : Nat) (r : Run) : Prop :=
  ∃ k' m' lines, k ≤ k' ∧ k' ≤ k + n ∧ m.after c.refusal k' = some (m', lines) ∧
    (∀ j, k ≤ j → j < k' → ¬ Stops c m limit j) ∧ Stops c m limit k' ∧
    Ends c m limit k' m' lines r

/-- A run that has taken `k` steps and is not at an end. -/
structure Follows (k : Nat) (r : Run) : Prop where
  count : r.count = k
  ending : r.ending = none
  steps : m.after c.refusal k = some (r.machine, r.printed)

end

variable {c : Console} {m : Machine} {limit : Option UInt64}

theorem Machine.cycles_le_maxCycles (m : Machine) : m.cycles.toNat ≤ maxCycles :=
  Nat.le_sub_one_of_lt m.cycles.toNat_lt

theorem Machine.allowance_le_iff (k : Nat) :
    allowance m.cycles limit ≤ k ↔ m.ceiling limit ≤ m.cycles.toNat + k := by
  have := m.cycles_le_maxCycles
  cases limit <;> simp only [allowance, ceiling, Option.elim] <;> omega

/-- The last of some steps, taken apart. -/
theorem Machine.after_succ {refusal : Array UInt8 → UInt8 → Option String} {k : Nat} {m' : Machine}
    {lines : Array UInt8} (h : m.after refusal (k + 1) = some (m', lines)) :
    ∃ i m₁ lines₁, m.after refusal k = some (m₁, lines₁) ∧
      (m₁.step (refusal lines₁)).result = .ok i ∧ m' = m₁.completed i := by
  obtain ⟨⟨m₁, lines₁⟩, h₁, hs⟩ := Option.bind_eq_some_iff.1 h
  dsimp only at hs
  split at hs
  next i hi =>
    obtain ⟨-, -, -, -, hstep⟩ := Machine.step_of_ok hi
    rw [hstep] at hs
    exact ⟨i, m₁, lines₁, h₁, hi, (Prod.mk.inj (Option.some.inj hs)).1.symm⟩
  next => cases hs

theorem Machine.cycles_of_after {refusal : Array UInt8 → UInt8 → Option String} {k : Nat}
    {m' : Machine} {lines : Array UInt8} (h : m.after refusal k = some (m', lines))
    (hk : m.cycles.toNat + k ≤ maxCycles) : m'.cycles.toNat = m.cycles.toNat + k := by
  induction k generalizing m' lines with
  | zero => cases h; rfl
  | succ k ih =>
    obtain ⟨i, m₁, lines₁, h₁, -, rfl⟩ := after_succ h
    have hc : m₁.cycles.toNat = m.cycles.toNat + k := ih h₁ (by omega)
    rw [Machine.cycles_completed (by omega), hc]
    rfl

theorem Run.isOver_eq_false_iff {r : Run} :
    r.isOver = false ↔ r.machine.state = .running ∧ r.ending = none := by
  cases hs : r.machine.state <;> simp [isOver, Machine.isHalted, hs]

theorem Follows.start : Follows c m 0 (Run.start m) := ⟨rfl, rfl, rfl⟩

theorem Follows.result {k : Nat} {r : Run} (h : Follows c m k r) : r.result = .ok k := by
  rw [Run.result, h.ending, h.count]

theorem Follows.advance_eq {k : Nat} {r : Run} (h : Follows c m k r)
    (hstop : c.stop k r.printed = false) :
    r.advance c = r.absorb (r.machine.step (c.refusal r.printed)) :=
  Run.advance_of_not_stop (by rw [h.count]; exact hstop)

theorem Follows.advance {k : Nat} {r : Run} {i : Instruction} (h : Follows c m k r)
    (hstop : c.stop k r.printed = false)
    (hi : (r.machine.step (c.refusal r.printed)).result = .ok i) :
    Follows c m (k + 1) (r.advance c) := by
  rw [h.advance_eq hstop, Run.absorb, hi]
  refine ⟨congrArg (· + 1) h.count, h.ending, ?_⟩
  simp only [Machine.after, h.steps, Option.bind_some, hi]

/-- A run that is not over has completed a step in each of its turns. -/
theorem Follows.of_extend {k : Nat} (h : ((Run.start m).extend c k).isOver = false) :
    Follows c m k ((Run.start m).extend c k) := by
  induction k with
  | zero => exact .start
  | succ k ih =>
    cases hover : ((Run.start m).extend c k).isOver with
    | true =>
      rw [Run.extend_add, Run.extend_of_isOver hover, hover] at h
      cases h
    | false =>
      have hturn : (Run.start m).extend c (k + 1) = ((Run.start m).extend c k).advance c := by
        rw [Run.extend_add, Run.extend_succ hover]
        rfl
      have hk := ih hover
      rw [hturn] at h ⊢
      cases hstop : c.stop k ((Run.start m).extend c k).printed with
      | true =>
        rw [Run.advance_of_stop (by rw [hk.count]; exact hstop)] at h
        simp [Run.isOver, Run.interrupt] at h
      | false =>
        cases hi : (((Run.start m).extend c k).machine.step
            (c.refusal ((Run.start m).extend c k).printed)).result with
        | ok i => exact hk.advance hstop hi
        | error f =>
          rw [hk.advance_eq hstop, Run.absorb, hi] at h
          simp [Run.isOver] at h

/-- What holds before a run and is kept by each of its turns holds after at most `n` of them. A turn
is taken by a run that follows the steps: it tries the next one, or it finds the button pressed. -/
theorem Run.extend_induction {P : Run → Prop} {n : Nat} (start : P (start m))
    (step : ∀ k r, k < n → Follows c m k r → r.machine.state = .running →
      c.stop k r.printed = false → P r → P (r.absorb (r.machine.step (c.refusal r.printed))))
    (stop : ∀ k r, k < n → Follows c m k r → r.machine.state = .running →
      c.stop k r.printed = true → P r → P r.interrupt) :
    P ((Run.start m).extend c n) := by
  suffices h : ∀ k ≤ n, P ((Run.start m).extend c k) from h n (Nat.le_refl n)
  intro k hk
  induction k with
  | zero => exact start
  | succ k ih =>
    have hr := ih (Nat.le_of_succ_le hk)
    rw [extend_succ']
    cases hover : ((Run.start m).extend c k).isOver with
    | true => exact hr
    | false =>
      have hfollows := Follows.of_extend hover
      have hrun := (isOver_eq_false_iff.1 hover).1
      rw [if_neg Bool.false_ne_true]
      cases hstop : c.stop k ((Run.start m).extend c k).printed with
      | true =>
        rw [advance_of_stop (by rw [hfollows.count]; exact hstop)]
        exact stop k _ hk hfollows hrun hstop hr
      | false =>
        rw [hfollows.advance_eq hstop]
        exact step k _ hk hfollows hrun hstop hr

theorem Follows.quiet {k : Nat} {r r' : Run} (h : Follows c m k r)
    (hq : Quiet c m limit k r.machine r.printed) (hres : r'.result = .ok k)
    (hcount : r'.count = k) (hm : r'.machine = r.machine) (hl : r'.printed = r.printed) :
    Stops c m limit k ∧ Ends c m limit k r.machine r.printed r' :=
  ⟨⟨_, _, h.steps, .inl hq⟩, hcount, fun _ => ⟨hres, hm, hl⟩, fun hn => absurd hq hn⟩

theorem Follows.failed {k : Nat} {r : Run} {f : Fault} (h : Follows c m k r)
    (hq : ¬ Quiet c m limit k r.machine r.printed)
    (hf : (r.machine.step (c.refusal r.printed)).result = .error f) :
    Stops c m limit k ∧ Ends c m limit k r.machine r.printed
      (r.absorb (r.machine.step (c.refusal r.printed))) := by
  refine ⟨⟨_, _, h.steps, .inr ⟨f, hf⟩⟩, ?_, fun hn => absurd hn hq, fun _ => ⟨f, hf, ?_⟩⟩
  · rw [Run.absorb, hf]
    exact h.count
  · rw [Run.absorb, hf]
    exact ⟨rfl, rfl, rfl⟩

theorem Follows.here {k n : Nat} {r r' : Run} (h : Follows c m k r)
    (he : Stops c m limit k ∧ Ends c m limit k r.machine r.printed r') :
    EndsFrom c m limit k n r' :=
  ⟨k, _, _, Nat.le_refl _, Nat.le_add_right _ _, h.steps, fun j h₁ h₂ => by omega, he⟩

theorem Follows.not_stops {k : Nat} {r : Run} {i : Instruction} (h : Follows c m k r)
    (hq : ¬ Quiet c m limit k r.machine r.printed)
    (hi : (r.machine.step (c.refusal r.printed)).result = .ok i) : ¬ Stops c m limit k := by
  rintro ⟨m', lines, hsteps, hstop⟩
  rw [h.steps] at hsteps
  cases hsteps
  rcases hstop with hstop | ⟨f, hf⟩
  · exact hq hstop
  · rw [hi] at hf
    cases hf

theorem Follows.extend_halted {k n : Nat} {r : Run} (h : Follows c m k r)
    (hs : r.machine.state = .halted) : EndsFrom c m limit k n (r.extend c n) := by
  have hover : r.isOver := by simp [Run.isOver, Machine.isHalted, hs]
  rw [Run.extend_of_isOver hover]
  exact h.here (h.quiet (.inl (by simp [hs])) h.result h.count rfl rfl)

theorem Follows.extend_stopped {k n : Nat} {r : Run} (h : Follows c m k r)
    (hs : r.machine.state = .running) (hstop : c.stop k r.printed = true) :
    EndsFrom c m limit k (n + 1) (r.extend c (n + 1)) := by
  have ha : r.advance c = r.interrupt := Run.advance_of_stop (by rw [h.count]; exact hstop)
  have hres : r.interrupt.result = .ok k := by rw [Run.interrupt, Run.result, h.count]
  have hover : r.interrupt.isOver := by simp [Run.isOver, Run.interrupt]
  rw [Run.extend_succ (Run.isOver_eq_false_iff.2 ⟨hs, h.ending⟩), ha, Run.extend_of_isOver hover]
  exact h.here (h.quiet (.inr (.inr hstop)) hres h.count rfl rfl)

theorem Follows.extend_failed {k n : Nat} {r : Run} {f : Fault} (h : Follows c m k r)
    (hs : r.machine.state = .running) (hq : ¬ Quiet c m limit k r.machine r.printed)
    (hstop : c.stop k r.printed = false)
    (hf : (r.machine.step (c.refusal r.printed)).result = .error f) :
    EndsFrom c m limit k (n + 1) (r.extend c (n + 1)) := by
  have hover : (r.absorb (r.machine.step (c.refusal r.printed))).isOver := by
    simp [Run.isOver, Run.absorb, hf]
  rw [Run.extend_succ (Run.isOver_eq_false_iff.2 ⟨hs, h.ending⟩), h.advance_eq hstop,
    Run.extend_of_isOver hover]
  exact h.here (h.failed hq hf)

/-- The end of what is left is the end of the whole if a run need not end at once. -/
theorem EndsFrom.of_succ {k n : Nat} {r : Run} (h : EndsFrom c m limit (k + 1) n r)
    (hk : ¬ Stops c m limit k) : EndsFrom c m limit k (n + 1) r := by
  obtain ⟨k', m', lines, h₁, h₂, hsteps, hleast, hend⟩ := h
  refine ⟨k', m', lines, by omega, by omega, hsteps, fun j hj hj' => ?_, hend⟩
  rcases Nat.eq_or_lt_of_le hj with rfl | hj
  · exact hk
  · exact hleast j hj hj'

/-- By induction on the steps that are left, a run that follows the steps ends as it has to. -/
theorem Follows.extend {k n : Nat} {r : Run} (h : Follows c m k r)
    (hn : k + n = Machine.allowance m.cycles limit) : EndsFrom c m limit k n (r.extend c n) := by
  induction n generalizing k r with
  | zero =>
    have hq : Quiet c m limit k r.machine r.printed :=
      .inr (.inl ((Machine.allowance_le_iff k).1 (by omega)))
    exact h.here (h.quiet hq h.result h.count rfl rfl)
  | succ n ih =>
    have hleft : ¬ m.ceiling limit ≤ m.cycles.toNat + k := by
      rw [← Machine.allowance_le_iff]
      omega
    cases hs : r.machine.state with
    | halted => exact h.extend_halted hs
    | running =>
      cases hstop : c.stop k r.printed with
      | true => exact h.extend_stopped hs hstop
      | false =>
        have hq : ¬ Quiet c m limit k r.machine r.printed := by
          simp [Quiet, hs, hleft, hstop]
        cases hres : (r.machine.step (c.refusal r.printed)).result with
        | error f => exact h.extend_failed hs hq hstop hres
        | ok i =>
          rw [Run.extend_succ (Run.isOver_eq_false_iff.2 ⟨hs, h.ending⟩)]
          exact (ih (h.advance hstop hres) (by omega)).of_succ (h.not_stops hq hres)

theorem Machine.runUntil_ends (c : Console) (m : Machine) (limit : Option UInt64) :
    EndsFrom c m limit 0 (allowance m.cycles limit) (m.runUntil c limit) :=
  Follows.start.extend (Nat.zero_add _)

theorem Machine.add_allowance_le (m : Machine) (limit : Option UInt64) :
    m.cycles.toNat + allowance m.cycles limit ≤ maxCycles := by
  have := m.cycles_le_maxCycles
  rw [allowance]
  omega

theorem Machine.allowance_le_limit (m : Machine) (max : UInt64) :
    allowance m.cycles (some max) ≤ max.toNat :=
  Nat.min_le_left _ _

theorem Console.eq_unstoppable {d : Console} (hr : d.refusal = c.refusal)
    (hs : ∀ k lines, d.stop k lines = false) : d = c.unstoppable := by
  obtain ⟨refusal, stop⟩ := d
  cases hr
  have : stop = fun _ _ => false := funext fun k => funext fun lines => hs k lines
  rw [this]
  rfl

/-- Without limit and button a run is over when it ends, if no step begins with a full counter. -/
theorem Machine.isOver_of_room
    (hroom : ∀ k m' lines, m.after c.refusal k = some (m', lines) → m'.state = .running →
      m'.cycles.toNat < Machine.maxCycles) :
    (m.runUntil c.unstoppable none).isOver := by
  obtain ⟨k, m', lines, -, hk, hsteps, -, -, hend⟩ := m.runUntil_ends c.unstoppable none
  cases hover : (m.runUntil c.unstoppable none).isOver with
  | true => rfl
  | false =>
    obtain ⟨hstate, hending⟩ := Run.isOver_eq_false_iff.1 hover
    by_cases hq : Quiet c.unstoppable m none k m' lines
    · obtain ⟨-, rfl, -⟩ := hend.quiet hq
      have hlt := hroom k _ lines hsteps hstate
      have hcount := Machine.cycles_of_after hsteps (by
        have := m.add_allowance_le none
        omega)
      rcases hq with h | h | h
      · exact absurd hstate h
      · change maxCycles ≤ _ at h
        omega
      · cases h
    · obtain ⟨f, -, hres, -⟩ := hend.failed hq
      rw [Run.result, hending] at hres
      cases hres

/-- Each run loop is the step, iterated up to the least number of steps at which it has to end. -/
theorem run_loops_iterate_step (c : Console) (m : Machine) :
    (∀ limit, ∃ k m' lines,
      m.after c.refusal k = some (m', lines) ∧
      (∀ j < k, ¬ Stops c m limit j) ∧ Stops c m limit k ∧
      Ends c m limit k m' lines (m.runUntil c limit) ∧
      m'.cycles.toNat = m.cycles.toNat + k ∧
      (∀ j < k, ∀ mj lj, m.after c.refusal j = some (mj, lj) → mj.cycles.toNat < Machine.maxCycles) ∧
      ∀ max, limit = some max → k ≤ max.toNat) ∧
    ∀ d : Console, d.refusal = c.refusal → (∀ k lines, d.stop k lines = false) →
      (∀ max, m.runLimited c max = m.runUntil d (some max)) ∧
      ((∀ k m' lines, m.after c.refusal k = some (m', lines) → m'.state = .running →
          m'.cycles.toNat < Machine.maxCycles) →
        m.run c = m.runUntil d none) := by
  refine ⟨fun limit => ?_, fun d hr hs => ?_⟩
  · obtain ⟨k, m', lines, -, hk, hsteps, hleast, hstops, hend⟩ := m.runUntil_ends c limit
    have hroom := m.add_allowance_le limit
    refine ⟨k, m', lines, hsteps, fun j => hleast j (Nat.zero_le _), hstops, hend,
      Machine.cycles_of_after hsteps (by omega), fun j hj mj lj hsteps => ?_, fun max hmax => ?_⟩
    · rw [Machine.cycles_of_after hsteps (by omega)]
      omega
    · have := m.allowance_le_limit max
      subst hmax
      omega
  · rw [Console.eq_unstoppable hr hs]
    refine ⟨fun max => rfl, fun hroom => ?_⟩
    have hallow : Machine.allowance m.cycles none = Machine.maxCycles - m.cycles.toNat :=
      Nat.min_eq_right (Nat.sub_le _ _)
    have hover := Machine.isOver_of_room hroom
    rw [Machine.runUntil, hallow] at hover ⊢
    rw [Machine.run, Run.extend_add, Run.extend_of_isOver hover]

/-- A machine about to halt whose cycle counter has room for one step. -/
def Machine.aboutToHalt : Machine :=
  { powerOn with mem := Memory.blank.write 0 0x01, cycles := 0xFFFFFFFFFFFFFFFE }

theorem Machine.after_aboutToHalt (refusal : Array UInt8 → UInt8 → Option String) (k : Nat) :
    aboutToHalt.after refusal (k + 2) = none := by
  induction k with
  | zero => rfl
  | succ k ih => rw [after, ih]; rfl

theorem run_aboutToHalt :
    (∀ k m' lines, Machine.aboutToHalt.after (fun _ _ => none) k = some (m', lines) →
      m'.state = .running → m'.cycles.toNat < Machine.maxCycles) ∧
    Machine.aboutToHalt.run .accepting = Machine.aboutToHalt.runUntil .accepting none := by
  have hroom : ∀ k m' lines, Machine.aboutToHalt.after (fun _ _ => none) k = some (m', lines) →
      m'.state = .running → m'.cycles.toNat < Machine.maxCycles := by
    intro k m' lines h hrun
    match k with
    | 0 => cases h; decide
    | 1 => cases h; cases hrun
    | k + 2 => rw [Machine.after_aboutToHalt] at h; cases h
  exact ⟨hroom, ((run_loops_iterate_step .accepting Machine.aboutToHalt).2 .accepting rfl
    fun _ _ => rfl).2 hroom⟩

end LS8
