import Mathlib.Data.UInt
import LS8.Proofs.Resumption
/-! Runs with a limit, one after another. Each begins where the one before it has left the machine,
and its limit is counted from there. A run that has not failed has moved the cycle counter by what
it counted (`Machine.cycles_runLimited`), so there is room for the next limit, and the two together
are the run whose limit is the sum (`Machine.runLimited_add`). By induction the slices of a run make
up the run whose limit is the sum of theirs. -/

namespace LS8

theorem toNat_sum {limits : List UInt64}
    (h : (limits.map UInt64.toNat).sum ≤ Machine.maxCycles) :
    limits.sum.toNat = (limits.map UInt64.toNat).sum := by
  have hmax : Machine.maxCycles < 2 ^ 64 := by decide
  induction limits with
  | nil => rfl
  | cons limit limits ih =>
    rw [List.map_cons, List.sum_cons] at h ⊢
    rw [List.sum_cons, UInt64.toNat_add, ih (by omega)]
    exact Nat.mod_eq_of_lt (by omega)

theorem sum_replicate_one (total : UInt64) (h : total.toNat ≤ Machine.maxCycles) :
    (List.replicate total.toNat 1).sum = total := by
  have hlengths : ((List.replicate total.toNat (1 : UInt64)).map UInt64.toNat).sum = total.toNat := by
    simp
  apply UInt64.toNat_inj.1
  rw [toNat_sum (by rw [hlengths]; exact h), hlengths]

namespace Run

variable {r : Run}

theorem isOver_of_failed {f : Fault} (h : r.result = .error f) : r.isOver := by
  rcases hending : r.ending with _ | e
  · rw [result, hending] at h
    cases h
  · simp [isOver, hending]

/-- A run whose button is not connected is never stopped. -/
theorem ending_ne_stopped (c : Console) (n : Nat) (h : r.ending ≠ some .stopped) :
    (r.extend c.unstoppable n).ending ≠ some .stopped := by
  induction n generalizing r with
  | zero => exact h
  | succ n ih =>
    cases hover : r.isOver with
    | true => rwa [extend_of_isOver hover]
    | false =>
      rw [extend_succ hover, advance_of_not_stop rfl]
      apply ih
      unfold absorb
      split
      · exact h
      · simp

end Run

namespace Machine

/-- Runs with these limits one after another, each on the machine and the console that the ones
before it have left, until one of them fails. -/
def slices (c : Console) (m : Machine) : List UInt64 → List Run
  | [] => []
  | limit :: limits =>
    let r := m.runLimited c limit
    match r.result with
    | .ok _ => r :: r.machine.slices (c.behind r) limits
    | .error _ => [r]

/-- Runs one after another that make up another run: they leave its machine and print its output,
and either the last of them fails as it does or they count together what it counts. -/
structure MakeUp (m : Machine) (slices : List Run) (whole : Run) : Prop where
  machine : slices.getLast?.elim m Run.machine = whole.machine
  output : String.join (slices.map Run.output) = whole.output
  result : (slices.mapM Run.result).map List.sum = whole.result

variable {c : Console} {m : Machine} {limit : UInt64} {limits : List UInt64} {n : Nat} {f : Fault}

theorem slices_of_ok (h : (m.runLimited c limit).result = .ok n) :
    m.slices c (limit :: limits) = m.runLimited c limit ::
      (m.runLimited c limit).machine.slices (c.behind (m.runLimited c limit)) limits := by
  simp only [slices, h]

theorem slices_of_error (h : (m.runLimited c limit).result = .error f) :
    m.slices c (limit :: limits) = [m.runLimited c limit] := by
  simp only [slices, h]

/-- Where the counter has room for a limit, a run may take as many steps as the limit says. -/
theorem runLimited_eq (h : m.cycles.toNat + limit.toNat ≤ maxCycles) :
    m.runLimited c limit = (Run.start m).extend c.unstoppable limit.toNat := by
  have hallow : allowance m.cycles (some limit) = limit.toNat :=
    Nat.min_eq_left (Nat.le_sub_of_add_le' h)
  rw [runLimited, runUntil, hallow]

/-- What a run with a limit has counted is what the cycle counter has moved by. -/
theorem cycles_runLimited (h : (m.runLimited c limit).result = .ok n) :
    n ≤ limit.toNat ∧ (m.runLimited c limit).machine.cycles.toNat = m.cycles.toNat + n := by
  obtain ⟨k, m', lines, -, hk, hsteps, -, -, hend⟩ := m.runUntil_ends c.unstoppable (some limit)
  have hroom := m.add_allowance_le (some limit)
  have hlimit := m.allowance_le_limit limit
  have hresult : (m.runUntil c.unstoppable (some limit)).result = .ok n := h
  by_cases hq : Quiet c.unstoppable m (some limit) k m' lines
  · obtain ⟨hok, hmachine, -⟩ := hend.quiet hq
    rw [hresult] at hok
    cases hok
    rw [runLimited, hmachine, cycles_of_after hsteps (by omega)]
    exact ⟨by omega, rfl⟩
  · -- a run that may go on and does not has failed
    obtain ⟨f, -, hfailed, -⟩ := hend.failed hq
    rw [hresult] at hfailed
    cases hfailed

theorem ending_runLimited (h : (m.runLimited c limit).result = .ok n) :
    (m.runLimited c limit).ending = none := by
  have hstop : (m.runLimited c limit).ending ≠ some .stopped := Run.ending_ne_stopped c _ nofun
  rcases hending : (m.runLimited c limit).ending with _ | _ | f
  · rfl
  · exact absurd hending hstop
  · rw [Run.result, hending] at h
    cases h

section

variable {a b : UInt64}

theorem runLimited_add (h : m.cycles.toNat + (a.toNat + b.toNat) ≤ maxCycles) :
    m.runLimited c (a + b) = (m.runLimited c a).extend c.unstoppable b.toNat := by
  have hmax : maxCycles < 2 ^ 64 := by decide
  have hsum : (a + b).toNat = a.toNat + b.toNat := by
    rw [UInt64.toNat_add]
    exact Nat.mod_eq_of_lt (by omega)
  rw [runLimited_eq (by omega), runLimited_eq (by omega), hsum, Run.extend_add]

theorem runLimited_add_of_ok (h : m.cycles.toNat + (a.toNat + b.toNat) ≤ maxCycles)
    (hok : (m.runLimited c a).result = .ok n) :
    m.runLimited c (a + b) = (m.runLimited c a).followedBy
      ((m.runLimited c a).machine.runLimited (c.behind (m.runLimited c a)) b) := by
  obtain ⟨hle, hcycles⟩ := cycles_runLimited hok
  have hrest : (m.runLimited c a).machine.runLimited (c.behind (m.runLimited c a)) b = _ :=
    runLimited_eq (by omega)
  rw [runLimited_add h, Run.extend_eq_followedBy _ (ending_runLimited hok), hrest]
  rfl

theorem runLimited_add_of_error (h : m.cycles.toNat + (a.toNat + b.toNat) ≤ maxCycles)
    (hf : (m.runLimited c a).result = .error f) : m.runLimited c (a + b) = m.runLimited c a := by
  rw [runLimited_add h, Run.extend_of_isOver (Run.isOver_of_failed hf)]

end

theorem MakeUp.nil : MakeUp m [] (.start m) := ⟨rfl, rfl, rfl⟩

theorem MakeUp.singleton {r : Run} (h : r.result = .error f) : MakeUp m [r] r where
  machine := rfl
  output := by simp
  result := by rw [List.mapM_cons, h]; rfl

theorem MakeUp.cons {r whole : Run} {rs : List Run} (hok : r.result = .ok r.count)
    (h : MakeUp r.machine rs whole) : MakeUp m (r :: rs) (r.followedBy whole) where
  machine := by
    have hlast := h.machine
    rw [List.getLast?_cons]
    cases hrs : rs.getLast? <;> rw [hrs] at hlast <;> exact hlast
  output := by
    rw [Run.output_followedBy, ← h.output]
    simp
  result := by
    rw [Run.result_followedBy, ← h.result, List.mapM_cons, hok]
    cases rs.mapM Run.result <;> rfl

/-- By induction on the limits, as long as the counter has room for all of them. -/
theorem makeUp_slices (h : m.cycles.toNat + (limits.map UInt64.toNat).sum ≤ maxCycles) :
    MakeUp m (m.slices c limits) (m.runLimited c limits.sum) := by
  induction limits generalizing c m with
  | nil =>
    have hnone : m.runLimited c 0 = .start m := runLimited_eq (by simpa using h)
    rw [slices, List.sum_nil, hnone]
    exact .nil
  | cons limit limits ih =>
    rw [List.map_cons, List.sum_cons] at h
    have hsum : limits.sum.toNat = (limits.map UInt64.toNat).sum := toNat_sum (by omega)
    have hroom : m.cycles.toNat + (limit.toNat + limits.sum.toNat) ≤ maxCycles := by
      rw [hsum]
      exact h
    rw [List.sum_cons]
    cases hr : (m.runLimited c limit).result with
    | error f =>
      rw [slices_of_error hr, runLimited_add_of_error hroom hr]
      exact .singleton hr
    | ok n =>
      obtain ⟨hle, hcycles⟩ := cycles_runLimited hr
      have hcount : (m.runLimited c limit).result = .ok (m.runLimited c limit).count := by
        rw [Run.result, ending_runLimited hr]
      rw [slices_of_ok hr, runLimited_add_of_ok hroom hr]
      exact .cons hcount (ih (by omega))

theorem runLimited_of_halted (h : m.state = .halted) : m.runLimited c limit = .start m := by
  apply Run.extend_of_isOver
  simp [Run.isOver, Run.start, isHalted, h]

/-- A machine that has halted is left alone by all slices. -/
theorem slices_of_halted (h : m.state = .halted) :
    m.slices c limits = limits.map fun _ => .start m := by
  induction limits generalizing c with
  | nil => rfl
  | cons limit limits ih =>
    have hstart : m.runLimited c limit = .start m := runLimited_of_halted h
    have hok : (m.runLimited c limit).result = .ok 0 := by
      rw [hstart]
      rfl
    rw [slices_of_ok hok, hstart, List.map_cons]
    exact congrArg _ ih

/-- After a slice that has halted the machine nothing happens in any more of them. -/
theorem slices_behind_halted {before after : List Run} {r : Run}
    (h : m.slices c limits = before ++ r :: after) (hr : r.machine.state = .halted) :
    ∀ s ∈ after, s = .start r.machine := by
  induction limits generalizing c m before with
  | nil => simp [slices] at h
  | cons limit limits ih =>
    cases hfirst : (m.runLimited c limit).result with
    | error f =>
      rw [slices_of_error hfirst] at h
      cases before with
      | nil => cases h; simp
      | cons b before => simp at h
    | ok n =>
      rw [slices_of_ok hfirst] at h
      cases before with
      | nil =>
        obtain ⟨rfl, hafter⟩ := List.cons.inj h
        rw [← hafter, slices_of_halted hr]
        simp
      | cons b before => exact ih (List.cons.inj h).2

end Machine

open Machine in
/-- The slices of a run make up the run, so also the slices of one instruction each, and those after
a halt add nothing. -/
theorem slices_make_up_run (c : Console) (m : Machine) (limits : List UInt64)
    (hroom : m.cycles.toNat + (limits.map UInt64.toNat).sum ≤ maxCycles) :
    MakeUp m (m.slices c limits) (m.runLimited c limits.sum) ∧
    MakeUp m (m.slices c (List.replicate limits.sum.toNat 1)) (m.runLimited c limits.sum) ∧
    ∀ before r after, m.slices c limits = before ++ r :: after → r.machine.state = .halted →
      ∀ s ∈ after, s.machine = r.machine ∧ s.output = "" ∧ s.result = .ok 0 := by
  have htotal : limits.sum.toNat = (limits.map UInt64.toNat).sum := toNat_sum (by omega)
  refine ⟨makeUp_slices hroom, ?_, fun before r after hslices hr s hs => ?_⟩
  · have hones : (List.replicate limits.sum.toNat (1 : UInt64)).sum = limits.sum :=
      sum_replicate_one _ (by omega)
    have hmake : MakeUp m (m.slices c (List.replicate limits.sum.toNat 1))
        (m.runLimited c (List.replicate limits.sum.toNat 1).sum) :=
      makeUp_slices (by simpa [htotal] using hroom)
    rwa [hones] at hmake
  · rw [slices_behind_halted hslices hr s hs]
    exact ⟨rfl, rfl, rfl⟩

/-- A machine about to print two lines, with a byte behind them that is no opcode. -/
def Machine.printingThenLost : Machine :=
  { powerOn with mem := Memory.blank.store 0 [0x47, 7, 0x47, 7, 0xFF] }

theorem printingThenLost_slices :
    Machine.printingThenLost.cycles.toNat +
      (([1, 0, 4, 9] : List UInt64).map UInt64.toNat).sum ≤ Machine.maxCycles ∧
    let slices := Machine.printingThenLost.slices .accepting [1, 0, 4, 9]
    slices.map Run.count = [1, 0, 1] ∧ String.join (slices.map Run.output) = "244\n244\n" ∧
      (slices.mapM Run.result).map List.sum = .error (.unknownOpcode 0xFF 4) := by
  have hroom : Machine.printingThenLost.cycles.toNat +
      (([1, 0, 4, 9] : List UInt64).map UInt64.toNat).sum ≤ Machine.maxCycles := by
    decide
  obtain ⟨hmake, -, -⟩ := slices_make_up_run .accepting Machine.printingThenLost [1, 0, 4, 9] hroom
  have hsum : ([1, 0, 4, 9] : List UInt64).sum = 14 := rfl
  have hlines : (Machine.printingThenLost.runLimited .accepting 14).lines = ["244\n", "244\n"] := by
    decide +kernel
  have hending : (Machine.printingThenLost.runLimited .accepting 14).ending =
      some (.failed (.unknownOpcode 0xFF 4)) := by
    decide +kernel
  rw [hsum] at hmake
  refine ⟨hroom, by decide +kernel, ?_, ?_⟩
  · rw [hmake.output, Run.output_eq_join, hlines]
    rfl
  · rw [hmake.result, Run.result, hending]

end LS8
