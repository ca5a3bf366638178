import LS8.Proofs.DigitReading
import LS8.Proofs.RunLoop
/-! Branches that are there for mistakes in the machine and not for mistakes in a program. `Defect`
names them, and the guarded machine has a stop in each of them where the machine itself has a fault
or an assertion. Apart from its stops it is the machine, and as it never stops (`guardedStep_eq`)
none of these branches is taken. Its arithmetic unit can be exchanged for another, so that it shows
what is left to that unit: the operations whose outcome depends on it (`guarded_depends_iff`). The
reader of lines is guarded in the same way. -/

namespace LS8

inductive Defect where
  /-- The arithmetic unit was given an operation that does not bear its mark. -/
  | unmarkedAlu (op : Opcode)
  /-- The arithmetic unit was given an operation that bears its mark and that it does not know. -/
  | unknownAlu (op : Opcode)
  /-- An operation that does not bear the mark for it set the program counter. -/
  | unmarkedJump (op : Opcode)
  /-- A register was found missing when the stack pointer had already moved. -/
  | lateRegister (e : NoSuchRegister)
  /-- Digits were found unreadable when they had already been checked. -/
  | lateDigits (code : List Char)
deriving DecidableEq, Repr

/-- What may fail for a reason in the program and stops at a defect. -/
abbrev Guarded (ε : Type) : Type → Type :=
  ExceptT ε (Except Defect)

namespace Guarded

variable {ε α β : Type}

def stop (d : Defect) : Guarded ε α :=
  .mk (.error d)

def sound (x : Except ε α) : Guarded ε α :=
  .mk (.ok x)

/-- A look at a register behind the point where it may be missing. -/
def late : Except NoSuchRegister α → Guarded ε α
  | .ok a => pure a
  | .error e => stop (.lateRegister e)

theorem bind_sound {x : Except ε α} {f : α → Except ε β} {g : α → Guarded ε β}
    (h : ∀ a, g a = sound (f a)) : sound x >>= g = sound (x >>= f) := by
  cases x with
  | error e => rfl
  | ok a => exact h a

theorem stop_ne_stop {d d' : Defect} (h : d ≠ d') : (stop d : Guarded ε α) ≠ stop d' := by
  intro e
  exact h (Except.error.inj e)

end Guarded

open Guarded

namespace Alu

/-- `execute` with a stop where it gives an operation back. -/
def guarded (op : Opcode) (r : Registers) (i j : UInt8) : Guarded AluFault Registers := do
  unless op.isAlu do
    stop (.unmarkedAlu op)
  let a ← sound ((r.get i).mapError .register)
  let b ← sound ((r.get j).mapError .register)
  match op with
  | .add => sound ((r.set i (add a b)).mapError .register)
  | .mul => sound ((r.set i (mul a b)).mapError .register)
  | .cmp => return { r with fl := .ofComparison a b }
  | _ => stop (.unknownAlu op)

end Alu

/-- The unit gives back the operations without its mark and no others. -/
theorem Alu.guarded_eq (op : Opcode) (r : Registers) (i j : UInt8) : guarded op r i j =
    if op.isAlu then sound (execute op r i j) else stop (.unmarkedAlu op) := by
  cases h : op.isAlu with
  | false => simp only [guarded, h]; rfl
  | true =>
    rcases op.isAlu_iff.1 h with rfl | rfl | rfl
    all_goals exact bind_sound fun a => bind_sound fun b => rfl

namespace Stack

/-- `pushRegister` with a stop where a register that was there is missing. -/
def guardedPushRegister (r : Registers) (m : Memory) (i : UInt8) :
    Guarded StackFault (Registers × Memory) := do
  sound ((Registers.check i).mapError .register)
  let r ← sound (lower r)
  let v ← late (r.get i)
  return (r, m.write r.sp v)

theorem guardedPushRegister_eq (r : Registers) (m : Memory) (i : UInt8) :
    guardedPushRegister r m i = sound (pushRegister r m i) := by
  unfold guardedPushRegister pushRegister
  by_cases hi : i.toNat < 8
  · rw [Registers.check_eq_ok_iff.2 hi]
    refine bind_sound fun _ => bind_sound fun r => ?_
    -- which registers there are does not depend on where the stack pointer stands
    rw [Registers.get_of_lt r hi]
    rfl
  · have hcheck : Registers.check i = .error ⟨i⟩ := if_neg hi
    rw [hcheck]
    rfl

end Stack

namespace Instruction

/-- `execute` with the given arithmetic unit and with stops. -/
def guarded (alu : Opcode → Registers → UInt8 → UInt8 → Guarded AluFault Registers)
    (refusal : UInt8 → Option String) (i : Instruction) (r : Registers) (m : Memory) :
    Guarded Fault Effect := do
  let width := i.opcode.width
  match i.opcode with
  | .hlt => return ⟨r, m, none, .halt⟩
  | .ldi =>
    let r ← sound ((r.set i.a i.b).mapError .register)
    return ⟨r, m, none, .advance width⟩
  | .prn =>
    let v ← sound ((r.get i.a).mapError .register)
    match refusal v with
    | some reason => throw (.output reason)
    | none => return ⟨r, m, some v, .advance width⟩
  | .add | .mul | .cmp =>
    let r ← (alu i.opcode r i.a i.b).adapt .ofAlu
    return ⟨r, m, none, .advance width⟩
  | .push =>
    let (r, m) ← (Stack.guardedPushRegister r m i.a).adapt .ofStack
    return ⟨r, m, none, .advance width⟩
  | .pop =>
    sound ((Registers.check i.a).mapError .register)
    let (v, r) ← sound ((Stack.pop r m).mapError .ofStack)
    let r ← late (r.set i.a v)
    return ⟨r, m, none, .advance width⟩
  | .call =>
    let target ← sound ((r.get i.a).mapError .register)
    if r.pc.toNat + width < 256 then
      let (r, m) ← sound ((Stack.push r m (r.pc + UInt8.ofNat width)).mapError .ofStack)
      return ⟨r, m, none, .jump target⟩
    else
      throw (.pcOutOfRange r.pc width)
  | .ret =>
    let (target, r) ← sound ((Stack.pop r m).mapError .ofStack)
    return ⟨r, m, none, .jump target⟩
  | .jmp =>
    let target ← sound ((r.get i.a).mapError .register)
    return ⟨r, m, none, .jump target⟩
  | .jeq =>
    let target ← sound ((r.get i.a).mapError .register)
    return ⟨r, m, none, if r.fl.isEqual then .jump target else .advance width⟩
  | .jne =>
    let target ← sound ((r.get i.a).mapError .register)
    return ⟨r, m, none, if r.fl.isEqual then .advance width else .jump target⟩

variable (refusal : UInt8 → Option String) (i : Instruction) (r : Registers) (m : Memory)

theorem guarded_eq : i.guarded Alu.guarded refusal r m = sound (i.execute refusal r m) := by
  obtain ⟨op, a, b⟩ := i
  cases op
  case hlt => rfl
  case ldi | ret | jmp | jeq | jne => exact bind_sound fun _ => rfl
  case prn => exact bind_sound fun v => by cases refusal v <;> rfl
  case add | mul | cmp =>
    simp only [guarded, Alu.guarded_eq, Opcode.isAlu_iff]
    exact bind_sound fun _ => rfl
  case push =>
    simp only [guarded, Stack.guardedPushRegister_eq]
    exact bind_sound fun _ => rfl
  case pop =>
    by_cases ha : a.toNat < 8
    · simp only [guarded, execute, Registers.check_eq_ok_iff.2 ha]
      refine bind_sound fun _ => bind_sound fun popped => ?_
      obtain ⟨v, r⟩ := popped
      dsimp only
      rw [Registers.set_of_lt r v ha]
      rfl
    · have hcheck : Registers.check a = .error ⟨a⟩ := if_neg ha
      simp only [guarded, execute, hcheck]
      rfl
  case call =>
    refine bind_sound fun target => ?_
    dsimp only
    split
    · exact bind_sound fun _ => rfl
    · rfl

/-- Which arithmetic unit is used makes a difference to the operations with its mark, whatever they
are carried out on, and to no others. -/
theorem guarded_depends_iff : i.opcode.isAlu = true ↔
    ∃ alu alu', i.guarded alu refusal r m ≠ i.guarded alu' refusal r m := by
  obtain ⟨op, a, b⟩ := i
  constructor
  · intro h
    refine ⟨fun _ _ _ _ => stop (.unmarkedAlu op), fun _ _ _ _ => stop (.unknownAlu op), ?_⟩
    rcases op.isAlu_iff.1 h with rfl | rfl | rfl
    all_goals exact stop_ne_stop (by decide)
  · rintro ⟨alu, alu', h⟩
    refine op.isAlu_iff.2 ?_
    cases op
    case add | mul | cmp => simp
    all_goals exact absurd rfl h

variable {refusal i r m} {e : Effect}

theorem next_of_execute (h : i.execute refusal r m = .ok e) : e.next = i.next r m := by
  rw [execute_eq] at h
  split at h <;> cases h
  rfl

theorem width_of_execute {width : Nat} (h : i.execute refusal r m = .ok e)
    (hnext : e.next = .advance width) : width = i.opcode.width := by
  rw [next_of_execute h, next] at hnext
  split at hnext
  · cases hnext
  · split at hnext <;> cases hnext
    exact i.opcode.width_eq_size.symm

theorem setsPc_of_execute {target : UInt8} (h : i.execute refusal r m = .ok e)
    (hnext : e.next = .jump target) : i.opcode.setsPc = true := by
  rw [next_of_execute h, next] at hnext
  split at hnext
  · cases hnext
  next hhlt =>
    split at hnext
    · cases hnext
    next hfalls =>
      obtain ⟨op, a, b⟩ := i
      refine op.setsPc_iff.2 ?_
      cases op
      case hlt => exact absurd rfl hhlt
      case call | ret | jmp | jeq | jne => simp
      all_goals exact absurd rfl hfalls

end Instruction

namespace Machine

/-- `proceed` with a stop before the jump of an operation that does not bear the mark for it. -/
def guardedProceed (m : Machine) (op : Opcode) (next : Next) :
    Guarded Fault (Machine × List Event) := do
  if let .jump _ := next then
    unless op.setsPc do
      stop (.unmarkedJump op)
  sound (m.proceed op next)

def guardedStep (refusal : UInt8 → Option String) (m : Machine) : Except Defect Step :=
  match m.state with
  | .halted => return ⟨.error .notRunning, m, none, []⟩
  | .running =>
    match m.fetch with
    | .error f => return ⟨.error f, m, none, []⟩
    | .ok i => do
      let seen := Event.fetched m.view i
      match ← (i.guarded Alu.guarded refusal m.regs m.mem).run with
      | .error f => return ⟨.error f, m, none, [seen]⟩
      | .ok e =>
        let worked := { m with regs := e.regs, mem := e.mem }
        match ← (worked.guardedProceed i.opcode e.next).run with
        | .error f => return ⟨.error f, worked, e.printed, [seen]⟩
        | .ok (moved, log) =>
          let counted := { moved with cycles := m.cycles + 1, last := some i }
          return ⟨.ok i, counted, e.printed, seen :: log⟩

theorem guardedProceed_eq {m : Machine} {op : Opcode} {next : Next}
    (h : ∀ target, next = .jump target → op.setsPc = true) :
    m.guardedProceed op next = sound (m.proceed op next) := by
  cases next with
  | advance width => rfl
  | halt => rfl
  | jump target =>
    simp only [guardedProceed, h target rfl]
    rfl

example (m : Machine) : m.guardedProceed .ldi (.jump 0) = stop (.unmarkedJump .ldi) := rfl

theorem guardedStep_eq (refusal : UInt8 → Option String) (m : Machine) :
    m.guardedStep refusal = .ok (m.step refusal) := by
  unfold guardedStep step
  cases m.state with
  | halted => rfl
  | running =>
    cases m.fetch with
    | error f => rfl
    | ok i =>
      dsimp only
      rw [Instruction.guarded_eq]
      cases he : i.execute refusal m.regs m.mem with
      | error f => rfl
      | ok e =>
        have hmark : ∀ target, e.next = .jump target → i.opcode.setsPc = true :=
          fun target => Instruction.setsPc_of_execute he
        simp only [sound, ExceptT.run, ExceptT.mk, ok_bind, guardedProceed_eq hmark]
        generalize proceed _ i.opcode e.next = moved
        cases moved <;> rfl

/-- The faults of a step are those of a program. -/
theorem result_step_ne_unsupported (refusal : UInt8 → Option String) (m : Machine) (op : Opcode) :
    (m.step refusal).result ≠ .error (.unsupported op) := by
  rcases step_cases refusal m with ⟨-, hs⟩ | ⟨-, -, hs⟩ |
    ⟨-, i, -, ⟨f, ho, hs⟩ | ⟨-, f, hoff, hs⟩ | ⟨-, -, hs⟩⟩
  all_goals rw [hs]
  · simp
  · simp
  · rcases Instruction.obstacle_cases ho with ⟨e, rfl⟩ | ⟨-, rfl⟩ | rfl | rfl | ⟨reason, rfl⟩
    all_goals simp
  · obtain ⟨-, rfl⟩ := Instruction.runsOff_eq_some_iff.1 hoff
    simp
  · simp

end Machine

/-- By induction on the turns, a run fails with nothing that no step fails with. -/
theorem Run.result_extend_ne {f : Fault}
    (h : ∀ refusal m, (Machine.step refusal m).result ≠ .error f) (c : Console) (m : Machine)
    (n : Nat) : ((start m).extend c n).result ≠ .error f := by
  apply extend_induction (P := fun r => r.result ≠ .error f)
  case start => exact nofun
  case step =>
    intro k r _ hr _ _ _
    rw [result_absorb hr.ending]
    cases hs : (r.machine.step (c.refusal r.printed)).result with
    | ok i => exact nofun
    | error g =>
      rintro ⟨⟩
      exact h _ _ hs
  case stop => exact fun _ _ _ _ _ _ _ => nofun

/-- `ofText` in two passes: the digits are checked and then read, with a stop where they are not
read. -/
def Image.Line.guarded (s : String) : Except Defect Line :=
  let c := code s.toList
  if c = [] then return blank
  else if Numeral.isOctetText (String.ofList c) then
    match Numeral.ofBinary? c with
    | some b => return byte b
    | none => throw (.lateDigits c)
  else return malformed (String.ofList c)

theorem Image.Line.guarded_eq (s : String) : guarded s = .ok (ofText s) := by
  unfold guarded ofText
  generalize code s.toList = c
  cases c with
  | nil => rfl
  | cons x c =>
    dsimp only
    rw [if_neg (List.cons_ne_nil x c)]
    by_cases h : (x :: c).length = 8 ∧ (x :: c).all Numeral.isBit
    · obtain ⟨b, hb⟩ := Option.isSome_iff_exists.1 (Numeral.ofBits?_isSome_iff.2 h)
      rw [if_pos (Numeral.isOctetText_ofList_iff.2 h), Numeral.ofBinary?_eq h.1 h.2, hb]
      rfl
    · have hnone : Numeral.ofBits? (x :: c) = none := if_neg h
      rw [if_neg fun ho => h (Numeral.isOctetText_ofList_iff.1 ho), hnone]
      rfl

/-- The guarded machine and the guarded reader of lines never stop: they are the machine and the
reader. So the arithmetic unit never gives an operation back to a step or a run. It is asked to
carry out those that bear its mark and no others, and an instruction that goes on to the next one
goes on by its own width. -/
theorem defects_unreachable :
    (∀ refusal (m : Machine), m.guardedStep refusal = .ok (m.step refusal)) ∧
    (∀ refusal (m : Machine) op, (m.step refusal).result ≠ .error (.unsupported op)) ∧
    (∀ c (m : Machine) op,
      (∀ limit, (m.runUntil c limit).result ≠ .error (.unsupported op)) ∧
      (∀ limit, (m.runLimited c limit).result ≠ .error (.unsupported op)) ∧
      (m.run c).result ≠ .error (.unsupported op)) ∧
    (∀ refusal (i : Instruction) r m,
      (∀ e width, i.execute refusal r m = .ok e → e.next = .advance width →
        width = 1 + i.opcode.operandCount) ∧
      (i.opcode.isAlu = true ↔ i.opcode = .add ∨ i.opcode = .mul ∨ i.opcode = .cmp) ∧
      (i.opcode.isAlu = true ↔
        ∃ alu alu', i.guarded alu refusal r m ≠ i.guarded alu' refusal r m)) ∧
    ∀ s, Image.Line.guarded s = .ok (Image.Line.ofText s) := by
  have hsteps (op : Opcode) (refusal : UInt8 → Option String) (m : Machine) :=
    m.result_step_ne_unsupported refusal op
  refine ⟨Machine.guardedStep_eq, fun refusal m op => hsteps op refusal m, fun c m op => ?_,
    fun refusal i r m => ?_, Image.Line.guarded_eq⟩
  · exact ⟨fun limit => Run.result_extend_ne (hsteps op) c m _,
      fun limit => Run.result_extend_ne (hsteps op) _ m _, Run.result_extend_ne (hsteps op) _ m _⟩
  · exact ⟨fun e width => Instruction.width_of_execute, i.opcode.isAlu_iff,
      i.guarded_depends_iff refusal r m⟩

/-- A machine about to pop its stack pointer. -/
def Machine.poppingItself : Machine :=
  { powerOn with mem := Memory.blank.store 0 [0x46, 7] }

theorem poppingItself_meets_no_defect :
    let m := Machine.poppingItself
    m.guardedStep (fun _ => none) = .ok (m.step fun _ => none) ∧
    (m.step fun _ => none).result = .ok ⟨.pop, 7, 0⟩ ∧
    ∃ e, Instruction.execute (fun _ => none) ⟨.pop, 7, 0⟩ m.regs m.mem = .ok e ∧
      e.regs.sp = 0 ∧ e.next = .advance 2 ∧ 2 = 1 + Opcode.pop.operandCount := by
  obtain ⟨hstep, -, -, hexecute, -⟩ := defects_unreachable
  obtain ⟨e, he, hsp, hnext⟩ : ∃ e, Instruction.execute (fun _ => none) ⟨.pop, 7, 0⟩
      Machine.poppingItself.regs Machine.poppingItself.mem = .ok e ∧
        e.regs.sp = 0 ∧ e.next = .advance 2 := ⟨_, rfl, rfl, rfl⟩
  have hwidth := (hexecute (fun _ => none) ⟨.pop, 7, 0⟩ _ _).1 e 2 he hnext
  exact ⟨hstep _ _, rfl, e, he, hsp, hnext, hwidth⟩

end LS8
