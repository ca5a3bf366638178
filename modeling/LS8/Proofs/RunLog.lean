import Mathlib.Data.List.Chain
import LS8.Proofs.Attempts
import LS8.Proofs.StraightLine
/-! What a run leaves in the log. Each step that gets as far as its instruction writes a record that
shows the machine before it; one that jumps writes the address to which it went, and one that halts
where it did and after how many steps (`Machine.recordsOfStep`). The log of a run is that of its
steps, in their order, and at its end the place where it was stopped, if it was. So the log alone
tells where each instruction stood: where the one before it had jumped, or behind it. -/

namespace LS8

namespace Machine

def recordsOfStep (m : Machine) (refusal : UInt8 → Option String) : List LogRecord :=
  match m.tries? with
  | none => []
  | some i =>
    let s := m.step refusal
    let after : List LogRecord :=
      match s.result with
      | .error _ => []
      | .ok _ =>
        if i.jumps m.regs.fl then
          [⟨.trace, .engine,
            s!"{i.opcode.mnemonic} jumps to 0x{Numeral.hex s.machine.regs.pc}"⟩]
        else if i.opcode = .hlt then
          let cycles := s.machine.cycles.toNat
          [⟨.info, .engine, s!"halted at PC=0x{Numeral.hex m.regs.pc} after {cycles} cycles"⟩]
        else []
    ⟨.trace, .engine, s!"{m.view.text} {i.text}"⟩ :: after

def recordsAt (refusal : Array UInt8 → UInt8 → Option String) (m : Machine) (k : Nat) :
    List LogRecord :=
  (m.after refusal k).elim [] fun (m', lines) => m'.recordsOfStep (refusal lines)

variable {m : Machine} {refusal : UInt8 → Option String}

theorem map_toRecord_log_step :
    (m.step refusal).log.map Event.toRecord = m.recordsOfStep refusal := by
  rcases step_tries refusal m with ⟨hi, f, h⟩ |
    ⟨i, hi, ⟨f, -, h⟩ | ⟨-, f, -, h⟩ | ⟨-, -, h⟩⟩
  all_goals rw [recordsOfStep, hi, h]
  · rfl
  · rfl
  · rfl
  · rcases m.report_cases i with ⟨hj, hr⟩ | ⟨hj, hop, hr⟩ | ⟨hj, hop, hr⟩
    all_goals
      rw [hr]
      dsimp only
    · rw [if_pos hj]
      rfl
    · rw [hj, if_neg Bool.false_ne_true, if_pos hop]
      rfl
    · rw [hj, if_neg Bool.false_ne_true, if_neg hop]
      rfl

end Machine

namespace Event

def isInstruction : Event → Bool
  | fetched _ _ => true
  | _ => false

/-- An event behind which the program is at the address: the one to which it has jumped, or the one
behind an instruction. -/
def LeadsTo (pc : UInt8) : Event → Prop
  | fetched v i => pc.toNat = v.pc.toNat + i.opcode.width
  | jumped _ target => pc = target
  | _ => False

/-- The second event may stand directly behind the first. -/
def Precedes (e : Event) : Event → Prop
  | fetched v _ => e.LeadsTo v.pc
  | jumped op _ => ∃ v i, e = fetched v i ∧ i.opcode = op
  | halted pc _ => ∃ v i, e = fetched v i ∧ i.opcode = .hlt ∧ v.pc = pc
  | stopped pc => e.LeadsTo pc
  | loaded _ => False

end Event

namespace Run

def tried (r : Run) : Nat :=
  match r.result with
  | .ok k => k
  | .error _ => r.count + 1

/-- How many instructions a run has begun: those that it completed, and one more if it failed for
any other reason than that there was none. -/
def begun (r : Run) : Nat :=
  match r.result with
  | .ok k => k
  | .error (.unknownOpcode _ _) => r.count
  | .error _ => r.count + 1

def stopRecord (r : Run) : LogRecord :=
  ⟨.info, .engine, s!"stop requested at PC=0x{Numeral.hex r.machine.regs.pc}"⟩

end Run

section

variable (c : Console) (m : Machine)

/-- The log of a run that has been stopped or has not. -/
structure Logs (stopped : Prop) (r : Run) : Prop where
  unstopped : ¬ stopped → r.log.toList.map Event.toRecord =
    (List.range r.tried).flatMap (m.recordsAt c.refusal)
  stopped : stopped → r.log.toList.map Event.toRecord =
    (List.range r.tried).flatMap (m.recordsAt c.refusal) ++ [r.stopRecord]
  instructions : r.log.toList.countP Event.isInstruction = r.begun
  links : r.log.toList.IsChain Event.Precedes

/-- A run that is neither over nor at its limit finds the button pressed. -/
structure FoundStop (limit : Option UInt64) (r : Run) : Prop where
  result : r.result = .ok r.count
  running : r.machine.state = .running
  room : m.cycles.toNat + r.count < m.ceiling limit
  pressed : c.stop r.count r.printed = true

end

variable {c : Console} {m : Machine} {r : Run} {n : Nat}

theorem Run.tried_absorb (h : r.ending = none) (s : Step) : (r.absorb s).tried = r.count + 1 := by
  unfold tried absorb result
  cases s.result <;> simp [h]

theorem Run.ending_absorb_ne (h : r.ending = none) (s : Step) :
    (r.absorb s).ending ≠ some .stopped := by
  unfold absorb
  cases s.result <;> simp [h]

theorem Run.tried_interrupt (r : Run) : r.interrupt.tried = r.count := rfl

theorem Follows.tried_eq {k : Nat} (h : Follows c m k r) : r.tried = k := by
  rw [Run.tried, h.result]

/-- The step that a run tries next is the one that its number says. -/
theorem Follows.recordsAt_eq {k : Nat} (h : Follows c m k r) :
    m.recordsAt c.refusal k = r.machine.recordsOfStep (c.refusal r.printed) := by
  rw [Machine.recordsAt, h.steps]
  rfl

/-- By induction on the turns, the records are those of the steps, and of the stop. -/
theorem records_extend : ((Run.start m).extend c n).log.toList.map Event.toRecord =
    (List.range ((Run.start m).extend c n).tried).flatMap (m.recordsAt c.refusal) ++
      if ((Run.start m).extend c n).ending = some .stopped then
        [((Run.start m).extend c n).stopRecord] else [] := by
  apply Run.extend_induction (P := fun r => r.log.toList.map Event.toRecord =
    (List.range r.tried).flatMap (m.recordsAt c.refusal) ++
      if r.ending = some .stopped then [r.stopRecord] else [])
  case start => rfl
  case step =>
    intro k r _ hr _ _ ih
    rw [hr.ending, if_neg nofun, List.append_nil, hr.tried_eq] at ih
    rw [Run.log_absorb, List.map_append, ih, Machine.map_toRecord_log_step,
      Run.tried_absorb hr.ending, hr.count, List.range_succ, List.flatMap_append,
      List.flatMap_singleton, hr.recordsAt_eq, if_neg (Run.ending_absorb_ne hr.ending _),
      List.append_nil]
  case stop =>
    intro k r _ hr _ _ ih
    rw [hr.ending, if_neg nofun, List.append_nil, hr.tried_eq] at ih
    rw [Run.tried_interrupt, hr.count, Run.interrupt, Array.toList_push, List.map_append, ih]
    rfl

theorem Run.begun_absorb (h : r.ending = none) (s : Step) : (r.absorb s).begun =
    r.count + match s.result with
      | .error (.unknownOpcode _ _) => 0
      | _ => 1 := by
  unfold begun absorb result
  rcases s.result with f | i
  · cases f <;> simp
  · simp [h]

theorem Run.begun_interrupt (r : Run) : r.interrupt.begun = r.count := rfl

theorem Follows.begun_eq {k : Nat} (h : Follows c m k r) : r.begun = k := by
  rw [Run.begun, h.result]

/-- A machine that runs shows an instruction unless there is none. -/
theorem Machine.countP_log_step {refusal : UInt8 → Option String} (hrun : m.state = .running) :
    (m.step refusal).log.countP Event.isInstruction =
      match (m.step refusal).result with
      | .error (.unknownOpcode _ _) => 0
      | _ => 1 := by
  rcases step_cases refusal m with ⟨hs, -⟩ | ⟨-, -, hs⟩ |
    ⟨-, i, -, ⟨f, ho, hs⟩ | ⟨-, f, hoff, hs⟩ | ⟨-, -, hs⟩⟩
  · rw [hrun] at hs
    cases hs
  all_goals rw [hs]
  · rfl
  · rcases Instruction.obstacle_cases ho with ⟨e, rfl⟩ | ⟨-, rfl⟩ | rfl | rfl | ⟨reason, rfl⟩
    all_goals rfl
  · obtain ⟨-, rfl⟩ := Instruction.runsOff_eq_some_iff.1 hoff
    rfl
  · rcases m.report_cases i with ⟨-, hr⟩ | ⟨-, -, hr⟩ | ⟨-, -, hr⟩
    all_goals rw [hr]; rfl

theorem instructions_extend : ((Run.start m).extend c n).log.toList.countP Event.isInstruction =
    ((Run.start m).extend c n).begun := by
  apply Run.extend_induction (P := fun r => r.log.toList.countP Event.isInstruction = r.begun)
  case start => rfl
  case step =>
    intro k r _ hr hrun _ ih
    rw [Run.log_absorb, List.countP_append, ih, hr.begun_eq, Machine.countP_log_step hrun,
      Run.begun_absorb hr.ending, hr.count]
  case stop =>
    intro k r _ hr _ _ ih
    rw [Run.begun_interrupt, hr.count, Run.interrupt, Array.toList_push, List.countP_append, ih,
      hr.begun_eq]
    rfl

/-- The events of a step hang together, the first of them stands where the machine was, and if it
goes on the last leads to where it is. -/
theorem Machine.links_log_step (m : Machine) (refusal : UInt8 → Option String) :
    (m.step refusal).log.IsChain Event.Precedes ∧
    (∀ p : Event, p.LeadsTo m.regs.pc → ∀ e ∈ (m.step refusal).log.head?, p.Precedes e) ∧
    ∀ i, (m.step refusal).result = .ok i → i.opcode ≠ .hlt →
      (m.step refusal).log ≠ [] ∧
      ∀ e ∈ (m.step refusal).log.getLast?, e.LeadsTo (m.step refusal).machine.regs.pc := by
  have hfetched (i : Instruction) (p : Event) (hp : p.LeadsTo m.regs.pc) (events : List Event) :
      ∀ e ∈ (Event.fetched m.view i :: events).head?, p.Precedes e := by
    rintro e ⟨⟩
    exact hp
  rcases step_tries refusal m with ⟨hi, f, h⟩ |
    ⟨i, hi, ⟨f, -, h⟩ | ⟨-, f, -, h⟩ | ⟨-, hoff, h⟩⟩
  all_goals rw [h]
  · exact ⟨.nil, by simp, nofun⟩
  · exact ⟨.singleton _, fun p hp => hfetched i p hp [], nofun⟩
  · exact ⟨.singleton _, fun p hp => hfetched i p hp [], nofun⟩
  · refine ⟨?_, fun p hp => hfetched i p hp _, ?_⟩
    · rcases m.report_cases i with ⟨-, hr⟩ | ⟨-, hop, hr⟩ | ⟨-, -, hr⟩
      all_goals rw [hr]
      · exact List.isChain_pair.2 ⟨_, _, rfl, rfl⟩
      · exact List.isChain_pair.2 ⟨_, _, rfl, hop, rfl⟩
      · exact .singleton _
    · rintro j ⟨⟩ hop
      refine ⟨List.cons_ne_nil _ _, ?_⟩
      rcases m.report_cases i with ⟨-, hr⟩ | ⟨-, hhlt, -⟩ | ⟨hj, -, hr⟩
      · rw [hr]
        rintro e ⟨⟩
        rfl
      · exact absurd hhlt hop
      · rw [hr]
        rintro e ⟨⟩
        have hpc := toNat_pc_completed hoff hj
        rw [if_neg hop, ← Opcode.width_eq_size] at hpc
        exact hpc

/-- By induction on the turns, the log of a run hangs together, and while it is not over the last
event leads to where the machine is. -/
theorem links_extend : ((Run.start m).extend c n).log.toList.IsChain Event.Precedes ∧
    (((Run.start m).extend c n).isOver = false →
      ∀ e ∈ ((Run.start m).extend c n).log.toList.getLast?,
        e.LeadsTo ((Run.start m).extend c n).machine.regs.pc) := by
  apply Run.extend_induction (P := fun r => r.log.toList.IsChain Event.Precedes ∧
    (r.isOver = false → ∀ e ∈ r.log.toList.getLast?, e.LeadsTo r.machine.regs.pc))
  case start => exact ⟨.nil, fun _ e he => by simp [Run.start] at he⟩
  case step =>
    intro k r _ hr hrun _ ⟨hchain, hlast⟩
    have hopen : r.isOver = false := Run.isOver_eq_false_iff.2 ⟨hrun, hr.ending⟩
    obtain ⟨hlinks, hfirst, hend⟩ := r.machine.links_log_step (c.refusal r.printed)
    rw [Run.log_absorb, Run.machine_absorb]
    refine ⟨hchain.append hlinks fun p hp => hfirst p (hlast hopen p hp), fun hover => ?_⟩
    obtain ⟨hrunning, hending⟩ := Run.isOver_eq_false_iff.1 hover
    rw [Run.machine_absorb] at hrunning
    cases hi : (r.machine.step (c.refusal r.printed)).result with
    | error f => simp [Run.absorb, hi] at hending
    | ok i =>
      have hop : i.opcode ≠ .hlt := fun hop => by
        obtain ⟨-, -, -, -, hs⟩ := Machine.step_of_ok hi
        rw [hs] at hrunning
        simp [Machine.completed, hop] at hrunning
      obtain ⟨hne, hend⟩ := hend i hi hop
      rw [List.getLast?_append_of_ne_nil _ hne]
      exact hend
  case stop =>
    intro k r _ hr hrun _ ⟨hchain, hlast⟩
    have hopen : r.isOver = false := Run.isOver_eq_false_iff.2 ⟨hrun, hr.ending⟩
    rw [Run.interrupt, Array.toList_push]
    refine ⟨hchain.append (.singleton _) fun p hp e he => ?_, fun hover => ?_⟩
    · cases he
      exact hlast hopen p hp
    · simp [Run.isOver] at hover

/-- Only a button that is found pressed while there is a turn left marks a run as stopped. -/
theorem stopped_extend : ((Run.start m).extend c n).ending = some .stopped →
    ((Run.start m).extend c n).count < n ∧
      ((Run.start m).extend c n).machine.state = .running ∧
      c.stop ((Run.start m).extend c n).count ((Run.start m).extend c n).printed = true := by
  apply Run.extend_induction (P := fun r => r.ending = some .stopped →
    r.count < n ∧ r.machine.state = .running ∧ c.stop r.count r.printed = true)
  case start => exact nofun
  case step =>
    intro k r _ hr _ _ _ h
    exact absurd h (Run.ending_absorb_ne hr.ending _)
  case stop =>
    intro k r hk hr hrun hstop _ _
    refine ⟨?_, hrun, ?_⟩
    · rw [Run.interrupt, hr.count]
      exact hk
    · rw [Run.interrupt, hr.count]
      exact hstop

/-- Only a run that is marked as stopped has the record of a stop. -/
theorem Logs.of_extend (c : Console) (m : Machine) (n : Nat) :
    Logs c m (((Run.start m).extend c n).ending = some .stopped) ((Run.start m).extend c n) where
  unstopped h := by rw [records_extend, if_neg h, List.append_nil]
  stopped h := by rw [records_extend, if_pos h]
  instructions := instructions_extend
  links := links_extend.1

/-- The mark of a stop says that the button was found pressed. A run that bears no mark and that has
not failed has halted or has taken all of its turns. -/
theorem stopped_iff_foundStop (c : Console) (m : Machine) (limit : Option UInt64) :
    (m.runUntil c limit).ending = some .stopped ↔ FoundStop c m limit (m.runUntil c limit) := by
  rw [Machine.runUntil]
  constructor
  · intro h
    obtain ⟨hcount, hrun, hstop⟩ := stopped_extend h
    refine ⟨by rw [Run.result, h], hrun, ?_, hstop⟩
    rw [← Nat.not_le, ← Machine.allowance_le_iff]
    exact Nat.not_le.2 hcount
  · rintro ⟨hres, hrun, hroom, -⟩
    rw [← Nat.not_le, ← Machine.allowance_le_iff] at hroom
    cases hend : ((Run.start m).extend c (Machine.allowance m.cycles limit)).ending with
    | none =>
      have hr := Follows.of_extend (Run.isOver_eq_false_iff.2 ⟨hrun, hend⟩)
      exact absurd (Nat.le_of_eq hr.count.symm) hroom
    | some e =>
      cases e with
      | stopped => rfl
      | failed f => simp [Run.result, hend] at hres

theorem Logs.of_unstoppable (c : Console) (m : Machine) (n : Nat) :
    Logs c m False ((Run.start m).extend c.unstoppable n) := by
  have h : ((Run.start m).extend c.unstoppable n).ending ≠ some .stopped := fun h =>
    Bool.false_ne_true (stopped_extend h).2.2
  have hlogs := Logs.of_extend c.unstoppable m n
  exact ⟨fun _ => hlogs.unstopped h, nofun, hlogs.instructions, hlogs.links⟩

theorem Machine.log_step_eq_nil_iff (m : Machine) (refusal : UInt8 → Option String) :
    (m.step refusal).log = [] ↔ (m.step refusal).result = .error .notRunning ∨
      ∃ b pc, (m.step refusal).result = .error (.unknownOpcode b pc) := by
  rcases step_cases refusal m with ⟨-, hs⟩ | ⟨-, -, hs⟩ |
    ⟨-, i, -, ⟨f, ho, hs⟩ | ⟨-, f, hoff, hs⟩ | ⟨-, -, hs⟩⟩
  all_goals rw [hs]
  · simp
  · simp
  · rcases Instruction.obstacle_cases ho with ⟨e, rfl⟩ | ⟨-, rfl⟩ | rfl | rfl | ⟨reason, rfl⟩
    all_goals simp
  · obtain ⟨-, rfl⟩ := Instruction.runsOff_eq_some_iff.1 hoff
    simp
  · simp

/-- The log of a run is that of its steps and of the stop that it found. A step leaves no mark in it
only if it is refused, and one that halts leaves the program counter at the address that it reports. -/
theorem log_replays_run (c : Console) (m : Machine) :
    (∀ limit, Logs c m (FoundStop c m limit (m.runUntil c limit)) (m.runUntil c limit)) ∧
    (∀ limit, Logs c m False (m.runLimited c limit)) ∧
    Logs c m False (m.run c) ∧
    ∀ refusal, ((m.step refusal).log = [] ↔ (m.step refusal).result = .error .notRunning ∨
      ∃ b pc, (m.step refusal).result = .error (.unknownOpcode b pc)) ∧
      ∀ i, (m.step refusal).result = .ok i → i.opcode = .hlt →
        (m.step refusal).machine.regs.pc = m.regs.pc := by
  refine ⟨fun limit => ?_, fun limit => .of_unstoppable c m _, .of_unstoppable c m _,
    fun refusal => ⟨m.log_step_eq_nil_iff refusal, fun i hi hop => ?_⟩⟩
  · rw [← stopped_iff_foundStop]
    exact .of_extend c m _
  · obtain ⟨-, -, -, -, hs⟩ := Machine.step_of_ok hi
    rw [hs]
    exact i.pcAfter_of_hlt _ _ hop

/-- A machine about to jump to a halt. -/
def Machine.jumpingToHalt : Machine :=
  { powerOn with mem := Memory.blank.store 0 [0x82, 1, 6, 0x54, 1, 0, 0x01] }

/-- The button is pressed after the first step. -/
def Console.stoppingSoon : Console :=
  ⟨fun _ _ => none, fun k _ => k = 1⟩

theorem jumpingToHalt_replayed :
    ((Machine.jumpingToHalt.run .accepting).log.toList.map fun e => e.toRecord.text) =
      ["TRACE: 00 | 82 01 06 | 00 00 00 00 00 00 00 F4 LDI R1,6",
        "TRACE: 03 | 54 01 00 | 00 06 00 00 00 00 00 F4 JMP R1",
        "JMP jumps to 0x06",
        "TRACE: 06 | 01 00 00 | 00 06 00 00 00 00 00 F4 HLT",
        "halted at PC=0x06 after 3 cycles"] ∧
    (Machine.jumpingToHalt.run .accepting).log.toList.IsChain Event.Precedes ∧
    ((Machine.jumpingToHalt.runUntil .stoppingSoon none).log.toList.map fun e => e.toRecord.text) =
      ["TRACE: 00 | 82 01 06 | 00 00 00 00 00 00 00 F4 LDI R1,6",
        "stop requested at PC=0x03"] := by
  obtain ⟨-, -, hrun, -⟩ := log_replays_run .accepting .jumpingToHalt
  obtain ⟨hstopped, -⟩ := log_replays_run .stoppingSoon .jumpingToHalt
  have htried : (Machine.jumpingToHalt.run .accepting).tried = 3 := by decide +kernel
  have hfound : FoundStop .stoppingSoon .jumpingToHalt none
      (Machine.jumpingToHalt.runUntil .stoppingSoon none) :=
    ⟨by decide +kernel, by decide +kernel, by decide +kernel, by decide +kernel⟩
  refine ⟨?_, hrun.links, ?_⟩
  · have hlog := congrArg (List.map LogRecord.text) (hrun.unstopped id)
    rw [List.map_map, htried] at hlog
    exact hlog.trans (by decide +kernel)
  · have hlog := congrArg (List.map LogRecord.text) ((hstopped none).stopped hfound)
    rw [List.map_map] at hlog
    exact hlog.trans (by decide +kernel)

end LS8
