import LS8.Proofs.Printing
/-! A printer that closes. Until a line is refused a run on such a printer is the run on one that
takes everything (`Run.extend_closing`), and the refusal leaves the machine as it stood before the
print instruction. So the run that was cut short has printed the first lines of the other one, and a
new run on its machine prints the rest and ends as that one ends. All of it holds after any number
of turns (`Machine.seen`), and so of runs that never end. -/

namespace LS8

/-- A run as it is seen after some turns, whether or not it has ended by then. -/
def Machine.seen (m : Machine) (c : Console) (turns : Nat) : Run :=
  (Run.start m).extend c.unstoppable turns

theorem Machine.run_eq_seen (m : Machine) (c : Console) :
    m.run c = m.seen c (maxCycles - m.cycles.toNat + 1) := rfl

variable {m : Machine} {r : Run} {n : Nat} (reason : String)

namespace Run

theorem advance_accepting (r : Run) :
    r.advance .accepting = r.absorb (r.machine.step fun _ => none) :=
  advance_of_not_stop rfl

theorem size_printed_advance : (r.advance .accepting).printed.size =
    r.printed.size + r.machine.offers?.toList.length := by
  have hprinted : (r.machine.step fun _ => none).printed = r.machine.offers? := by
    rw [Machine.printed_step]
    cases r.machine.offers? <;> rfl
  rw [advance_accepting, printed_absorb, hprinted, ← Array.length_toList, Array.toList_appendList,
    List.length_append, Array.length_toList]

/-- As long as there is room for the line, a turn is as it is on a printer that takes it. -/
theorem advance_closing (h : (r.advance .accepting).printed.size ≤ n) :
    r.advance (Console.accepting.closingAfter n reason) = r.advance .accepting := by
  rw [size_printed_advance] at h
  have hstep : r.machine.step ((Console.accepting.closingAfter n reason).refusal r.printed) =
      r.machine.step fun _ => none := by
    refine Machine.step_of_agree fun v hv => ?_
    rw [hv] at h
    exact if_neg (Nat.not_le.2 h)
  rw [advance_of_not_stop rfl, hstep, advance_accepting]

/-- By induction on the turns, so are all turns together. -/
theorem extend_closing {t : Nat} (h : (r.extend .accepting t).printed.size ≤ n) :
    r.extend (Console.accepting.closingAfter n reason) t = r.extend .accepting t := by
  induction t generalizing r with
  | zero => rfl
  | succ t ih =>
    cases hover : r.isOver with
    | true => rw [extend_of_isOver hover, extend_of_isOver hover]
    | false =>
      rw [extend_succ hover] at h
      have hfirst := Nat.le_trans ((r.advance .accepting).size_printed_le_extend .accepting t) h
      rw [extend_succ hover, extend_succ hover, advance_closing reason hfirst]
      exact ih h

/-- Before there are more than `n` lines there is a turn that finds `n` and prints another. -/
theorem exists_full {t : Nat} (hle : r.printed.size ≤ n)
    (hlt : n < (r.extend .accepting t).printed.size) :
    ∃ k < t, (r.extend .accepting k).isOver = false ∧ (r.extend .accepting k).printed.size = n ∧
      ∃ v, (r.extend .accepting k).machine.offers? = some v := by
  induction t generalizing r with
  | zero => exact absurd hlt (Nat.not_lt.2 hle)
  | succ t ih =>
    cases hover : r.isOver with
    | true =>
      rw [extend_of_isOver hover] at hlt
      exact absurd hlt (Nat.not_lt.2 hle)
    | false =>
      rw [extend_succ hover] at hlt
      by_cases hnext : (r.advance .accepting).printed.size ≤ n
      · obtain ⟨k, hk, hfull⟩ := ih hnext hlt
        refine ⟨k + 1, Nat.succ_lt_succ hk, ?_⟩
        rw [extend_succ hover]
        exact hfull
      · rw [size_printed_advance] at hnext
        cases hoffer : r.machine.offers? with
        | none =>
          rw [hoffer] at hnext
          exact absurd hle hnext
        | some v =>
          rw [hoffer, Option.toList_some, List.length_singleton] at hnext
          exact ⟨0, Nat.succ_pos t, hover, by rw [extend]; omega, v, hoffer⟩

/-- The turn that finds the printer closed changes nothing but that the run has failed. -/
theorem advance_closed {v : UInt8} (hfull : n ≤ r.printed.size)
    (hoffer : r.machine.offers? = some v) :
    ∃ i, r.advance (Console.accepting.closingAfter n reason) =
      { r with
        log := r.log ++ [Event.fetched r.machine.view i]
        ending := some (.failed (.output reason)) } := by
  have hrefused : (Console.accepting.closingAfter n reason).refusal r.printed v = some reason :=
    if_pos hfull
  obtain ⟨i, -, hstep⟩ := Machine.step_of_refused hoffer hrefused
  refine ⟨i, ?_⟩
  rw [advance_of_not_stop rfl, hstep, absorb]
  simp

end Run

/-- What is left of a run that is cut short after `k` steps by a printer that takes `n` lines: the
machine and the lines of these steps on a printer that takes everything, where the next step prints
another line. -/
structure CutShort (m : Machine) (n : Nat) (reason : String) (k : Nat) (cut : Run) : Prop where
  count : cut.count = k
  steps : m.after (fun _ _ => none) k = some (cut.machine, cut.printed)
  size : cut.lines.length = n
  prints : ∃ i, cut.machine.fetch = .ok i ∧ i.opcode = .prn ∧
    (cut.machine.step fun _ => none).printed = some (cut.machine.regs.value i.a)
  result : cut.result = .error (.output reason)

/-- A run that goes on where one was cut short, beside the run that was not cut. -/
structure TakenUp (cut resumed free : Run) : Prop where
  machine : resumed.machine = free.machine
  ending : resumed.ending = free.ending
  lines : cut.lines ++ resumed.lines = free.lines
  output : cut.output ++ resumed.output = free.output
  count : cut.count + resumed.count = free.count
  result : resumed.result = free.result.map (· - cut.count)

theorem Run.length_lines (r : Run) : r.lines.length = r.printed.size := by
  simp [lines]

/-- A run that stopped at a turn which would have gone on may be taken up with a new one. -/
theorem TakenUp.of_extend {cut : Run} (hending : r.ending = none)
    (hmachine : cut.machine = r.machine) (hprinted : cut.printed = r.printed)
    (hcount : cut.count = r.count) (s : Nat) :
    TakenUp cut (cut.machine.seen .accepting s) (r.extend .accepting s) := by
  have hlines : cut.lines = r.lines := by rw [Run.lines, hprinted, Run.lines]
  have hseen : cut.machine.seen .accepting s = (Run.start r.machine).extend .accepting s := by
    rw [hmachine]
    rfl
  rw [Run.extend_eq_followedBy .accepting hending, Console.behind_accepting, hseen]
  exact
    { machine := rfl
      ending := rfl
      lines := by rw [Run.lines_followedBy, hlines]
      output := by rw [Run.output_followedBy, Run.output_eq_join, hlines, ← Run.output_eq_join]
      count := by rw [hcount]; rfl
      result := by
        rw [Run.result_followedBy, hcount]
        cases ((Run.start r.machine).extend .accepting s).result <;> simp [Except.map] }

theorem Machine.cutShort_seen {t : Nat} (h : n < (m.seen .accepting t).lines.length) :
    ∃ k < t, CutShort m n reason k (m.seen (Console.accepting.closingAfter n reason) t) ∧
      ∀ s, TakenUp (m.seen (Console.accepting.closingAfter n reason) t)
        ((m.seen (Console.accepting.closingAfter n reason) t).machine.seen .accepting s)
        (m.seen .accepting (k + s)) := by
  rw [Run.length_lines] at h
  obtain ⟨k, hk, hover, hsize, v, hoffer⟩ := Run.exists_full (r := Run.start m) (Nat.zero_le n) h
  have hsteps : Follows .accepting m k ((Run.start m).extend .accepting k) := .of_extend hover
  obtain ⟨i, hturn⟩ := Run.advance_closed reason (Nat.le_of_eq hsize.symm) hoffer
  -- up to the turn that is refused both printers have taken the same lines
  have hcut : m.seen (Console.accepting.closingAfter n reason) t =
      ((Run.start m).extend .accepting k).advance (Console.accepting.closingAfter n reason) := by
    obtain ⟨d, rfl⟩ := Nat.exists_eq_add_of_lt hk
    have hfailed : (((Run.start m).extend .accepting k).advance
        (Console.accepting.closingAfter n reason)).isOver := by
      rw [hturn]
      simp [Run.isOver]
    have hsame := Run.extend_closing reason (Nat.le_of_eq hsize)
    have hseen : m.seen (Console.accepting.closingAfter n reason) (k + d + 1) =
        (Run.start m).extend (Console.accepting.closingAfter n reason) (k + (d + 1)) := rfl
    rw [hseen, Run.extend_add, hsame, Run.extend_succ hover, Run.extend_of_isOver hfailed]
  refine ⟨k, hk, ?_, fun s => ?_⟩
  · obtain ⟨j, htry, hop, hbad, hv⟩ := Machine.offers?_eq_some_iff.1 hoffer
    have hj := (Machine.tries?_eq_some_iff.1 htry).2
    rw [hcut, hturn]
    exact
      { count := hsteps.count
        steps := hsteps.steps
        size := (Run.length_lines _).trans hsize
        prints := ⟨j, hj, hop, by rw [Machine.printed_step, hoffer, hv]; rfl⟩
        result := rfl }
  · have hfree : m.seen .accepting (k + s) =
        ((Run.start m).extend .accepting k).extend .accepting s :=
      Run.extend_add .accepting k s (Run.start m)
    rw [hcut, hturn, hfree]
    refine TakenUp.of_extend hsteps.ending ?_ ?_ ?_ s
    all_goals rfl

/-- A printer that closes cuts a run short at the line that it refuses and changes nothing else, so
that the run can be taken up again. -/
theorem closed_printer_cuts_run (m : Machine) (n : Nat) (reason : String) :
    let closing := Console.accepting.closingAfter n reason
    (∀ t, (m.seen .accepting t).lines.length ≤ n → m.seen closing t = m.seen .accepting t) ∧
    (∀ t, n < (m.seen .accepting t).lines.length →
      let cut := m.seen closing t
      cut.lines = (m.seen .accepting t).lines.take n ∧
      ∃ k < t, CutShort m n reason k cut ∧
        ∀ s, TakenUp cut (cut.machine.seen .accepting s) (m.seen .accepting (k + s))) ∧
    ((m.run .accepting).lines.length ≤ n → m.run closing = m.run .accepting) ∧
    (n < (m.run .accepting).lines.length →
      let cut := m.run closing
      cut.lines = (m.run .accepting).lines.take n ∧
      ∃ k, CutShort m n reason k cut ∧
        TakenUp cut (cut.machine.run .accepting) (m.run .accepting)) ∧
    ∀ c t, ((Run.start m).extend c t).output =
      String.join (((Run.start m).attempts c t).filterMap Attempt.line?) := by
  intro closing
  have hcut (t : Nat) (h : n < (m.seen .accepting t).lines.length) :
      (m.seen closing t).lines = (m.seen .accepting t).lines.take n ∧
      ∃ k < t, CutShort m n reason k (m.seen closing t) ∧
        ∀ s, TakenUp (m.seen closing t) ((m.seen closing t).machine.seen .accepting s)
          (m.seen .accepting (k + s)) := by
    obtain ⟨k, hk, hshort, htaken⟩ := Machine.cutShort_seen reason h
    refine ⟨?_, k, hk, hshort, htaken⟩
    obtain ⟨d, rfl⟩ := Nat.exists_eq_add_of_le (Nat.le_of_lt hk)
    rw [← (htaken d).lines, List.take_left' hshort.size]
  refine ⟨fun t h => Run.extend_closing reason (by rw [← Run.length_lines]; exact h), hcut,
    fun h => Run.extend_closing reason (by rw [← Run.length_lines]; exact h), fun h => ?_,
    fun c t => ?_⟩
  · obtain ⟨hlines, k, hk, hshort, htaken⟩ := hcut _ h
    refine ⟨hlines, k, hshort, ?_⟩
    have hle := m.cycles_le_maxCycles
    -- the run that is taken up has just the turns that the other one had left
    have hfree : m.run .accepting =
        m.seen .accepting (k + (Machine.maxCycles - (m.run closing).machine.cycles.toNat + 1)) := by
      have hcycles : (m.run closing).machine.cycles.toNat = m.cycles.toNat + k :=
        Machine.cycles_of_after hshort.steps (by omega)
      rw [m.run_eq_seen]
      congr 1
      omega
    rw [hfree]
    exact htaken _
  · rw [Run.output_eq_join, Run.lines_extend]
    rfl

/-- A machine about to print two lines and to halt. -/
def Machine.printingTwice : Machine :=
  { powerOn with mem := Memory.blank.store 0 [0x47, 7, 0x47, 7, 0x01] }

theorem run_printingTwice :
    1 < (Machine.printingTwice.run .accepting).lines.length ∧
    let cut := Machine.printingTwice.run (Console.accepting.closingAfter 1 "sink closed")
    cut.result = .error (.output "sink closed") ∧ cut.lines = ["244\n"] ∧
      cut.output ++ (cut.machine.run .accepting).output = "244\n244\n" ∧
      (cut.machine.run .accepting).result = .ok 2 := by
  have hlines : (Machine.printingTwice.run .accepting).lines = ["244\n", "244\n"] := by
    decide +kernel
  have hending : (Machine.printingTwice.run .accepting).ending = none ∧
      (Machine.printingTwice.run .accepting).count = 3 := by
    decide +kernel
  have hresult : (Machine.printingTwice.run .accepting).result = .ok 3 := by
    rw [Run.result, hending.1, hending.2]
  have hmore : 1 < (Machine.printingTwice.run .accepting).lines.length := by
    rw [hlines]
    decide
  obtain ⟨-, -, -, hrun, -⟩ := closed_printer_cuts_run Machine.printingTwice 1 "sink closed"
  obtain ⟨hfirst, k, hshort, htaken⟩ := hrun hmore
  have hcount : (Machine.printingTwice.run (Console.accepting.closingAfter 1 "sink closed")).count =
      1 := by
    decide +kernel
  refine ⟨hmore, hshort.result, ?_, ?_, ?_⟩
  · rw [hfirst, hlines]
    rfl
  · rw [htaken.output, Run.output_eq_join, hlines]
    rfl
  · rw [htaken.result, hresult, hcount]
    rfl

end LS8
