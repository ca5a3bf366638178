import LS8.Proofs.StepOutcome
import LS8.Proofs.UnusedOperands
/-! The machine worked on in place. Here registers and memory are changed one after the other while
an instruction is carried out, lines are printed and events reported on the way, and a failure
leaves all of that as it was when it occurred. A function that gives back either a new machine or a
fault cannot show what a failure leaves behind. The two come to the same for every call
(`push_on`, `pop_on`, `pushRegister_on`, `alu_on`, `execute_on`, `step_on`): a register is never
found missing when the stack pointer has already moved, so an instruction that fails has changed
nothing (`unchanged_of_execute_failed`), and neither has a call that fails
(`Bench.eq_of_settle_error`). -/

namespace LS8

/-- A machine at work, with the lines that it has printed and the events that it has reported. -/
structure Bench where
  machine : Machine
  printed : List UInt8
  log : List Event

/-- Work on a bench. Where it fails, the bench stays as the work up to there has left it. -/
abbrev InPlace (ε : Type) : Type → Type :=
  ExceptT ε (StateM Bench)

namespace Bench

variable {ε α β : Type}

def put (b : Bench) (r : Registers) (m : Memory) : Bench :=
  { b with machine := { b.machine with regs := r, mem := m } }

def printing (b : Bench) : Option UInt8 → Bench
  | some v => { b with printed := b.printed ++ [v] }
  | none => b

/-- The bench with what a call has given back; nothing happens to it where the call fails. -/
def settle (b : Bench) (place : α → β × Bench) : Except ε α → Except ε β × Bench
  | .ok a => (.ok (place a).1, (place a).2)
  | .error e => (.error e, b)

/-- The bench when a step has been taken on it, and what the step has given. -/
def after (b : Bench) (s : Step) : Except Fault Instruction × Bench :=
  (s.result, ⟨s.machine, b.printed ++ s.printed.toList, b.log ++ s.log⟩)

theorem eq_of_settle_error {b b' : Bench} {place : α → β × Bench} {x : Except ε α} {e : ε}
    (h : b.settle place x = (.error e, b')) : b' = b := by
  cases x with
  | ok a => cases h
  | error e => exact (Prod.mk.inj h).2.symm

end Bench

namespace InPlace

variable {ε ε' α β : Type}

def on (x : InPlace ε α) (b : Bench) : Except ε α × Bench :=
  x.run b

/-- A look at the machine, which may fail. -/
def look (f : Machine → Except ε α) : InPlace ε α :=
  .mk fun b => (f b.machine, b)

def read (f : Machine → α) : InPlace ε α :=
  look fun m => .ok (f m)

def change (f : Machine → Machine) : InPlace ε Unit :=
  modify fun b => { b with machine := f b.machine }

def report (e : Event) : InPlace ε Unit :=
  modify fun b => { b with log := b.log ++ [e] }

def register (i : UInt8) : InPlace NoSuchRegister UInt8 :=
  look fun m => m.regs.get i

def setRegister (i v : UInt8) : InPlace NoSuchRegister Unit := do
  let r ← look fun m => m.regs.set i v
  change fun m => { m with regs := r }

/-- Moves the stack pointer down and gives back where it stands then. -/
def lower : InPlace StackFault UInt8 := do
  let sp ← read (·.regs.sp)
  if sp = 0 then
    throw .overflow
  change fun m => { m with regs := m.regs.setSp (sp - 1) }
  return sp - 1

def write (a v : UInt8) : InPlace ε Unit :=
  change fun m => { m with mem := m.mem.write a v }

def push (v : UInt8) : InPlace StackFault Unit := do
  let sp ← lower
  write sp v

def pop : InPlace StackFault UInt8 := do
  let sp ← read (·.regs.sp)
  if sp = 0xFF then
    throw .underflow
  let v ← read (·.mem.read sp)
  change fun m => { m with regs := m.regs.setSp (sp + 1) }
  return v

/-- The register is looked up when the stack pointer has moved already. -/
def pushRegister (i : UInt8) : InPlace StackFault Unit := do
  (look fun _ => Registers.check i).adapt .register
  let sp ← lower
  let v ← (register i).adapt .register
  write sp v

def alu (op : Opcode) (i j : UInt8) : InPlace AluFault Unit := do
  unless op.isAlu do
    throw (.unsupported op)
  let a ← (register i).adapt .register
  let b ← (register j).adapt .register
  match op with
  | .add => (setRegister i (Alu.add a b)).adapt .register
  | .mul => (setRegister i (Alu.mul a b)).adapt .register
  | .cmp => change fun m => { m with regs := { m.regs with fl := .ofComparison a b } }
  | _ => throw (.unsupported op)

/-- A line is printed only if the printer takes it. -/
def print (refusal : UInt8 → Option String) (v : UInt8) : InPlace Fault Unit :=
  match refusal v with
  | some reason => throw (.output reason)
  | none => modify (·.printing (some v))

def execute (refusal : UInt8 → Option String) (i : Instruction) : InPlace Fault Next := do
  let width := i.opcode.width
  match i.opcode with
  | .hlt => return .halt
  | .ldi =>
    (setRegister i.a i.b).adapt .register
    return .advance width
  | .prn =>
    let v ← (register i.a).adapt .register
    print refusal v
    return .advance width
  | .add | .mul | .cmp =>
    (alu i.opcode i.a i.b).adapt .ofAlu
    return .advance width
  | .push =>
    (pushRegister i.a).adapt .ofStack
    return .advance width
  | .pop =>
    (look fun _ => Registers.check i.a).adapt .register
    let v ← pop.adapt .ofStack
    (setRegister i.a v).adapt .register
    return .advance width
  | .call =>
    let target ← (register i.a).adapt .register
    let pc ← read (·.regs.pc)
    if pc.toNat + width < 256 then
      (push (pc + UInt8.ofNat width)).adapt .ofStack
      return .jump target
    else
      throw (.pcOutOfRange pc width)
  | .ret =>
    let target ← pop.adapt .ofStack
    return .jump target
  | .jmp =>
    let target ← (register i.a).adapt .register
    return .jump target
  | .jeq =>
    let target ← (register i.a).adapt .register
    let f ← read (·.regs.fl)
    return if f.isEqual then .jump target else .advance width
  | .jne =>
    let target ← (register i.a).adapt .register
    let f ← read (·.regs.fl)
    return if f.isEqual then .advance width else .jump target

def setPc (pc : UInt8) : InPlace ε Unit :=
  change fun m => { m with regs := { m.regs with pc } }

def proceed (op : Opcode) : Next → InPlace Fault Unit
  | .advance width => do
    let pc ← read (·.regs.pc)
    if pc.toNat + width < 256 then
      setPc (pc + UInt8.ofNat width)
    else
      throw (.pcOutOfRange pc width)
  | .jump target => do
    report (.jumped op target)
    setPc target
  | .halt => do
    change fun m => { m with state := .halted }
    let m ← read id
    report (.halted m.regs.pc (m.cycles + 1))

/-- What a step does once it has fetched an instruction. -/
def carryOut (refusal : UInt8 → Option String) (i : Instruction) : InPlace Fault Instruction := do
  let next ← execute refusal i
  proceed i.opcode next
  change fun m => { m with cycles := m.cycles + 1 }
  change fun m => { m with last := some i }
  return i

def step (refusal : UInt8 → Option String) : InPlace Fault Instruction := do
  let m ← read id
  if m.state = .halted then
    throw .notRunning
  let i ← look Machine.fetch
  report (.fetched m.view i)
  carryOut refusal i

theorem look_on (f : Machine → Except ε α) (b : Bench) : (look f).on b = (f b.machine, b) := rfl

theorem read_bind (f : Machine → α) (k : α → InPlace ε β) (b : Bench) :
    (read f >>= k).on b = (k (f b.machine)).on b := rfl

theorem bind_of_ok {x : InPlace ε α} {b b' : Bench} {a : α} (hx : x.on b = (.ok a, b'))
    (f : α → InPlace ε β) : (x >>= f).on b = (f a).on b' := by
  have hbind : (x >>= f).on b = ExceptT.bindCont f (x.on b).1 (x.on b).2 := rfl
  rw [hbind, hx]
  rfl

theorem bind_of_error {x : InPlace ε α} {b b' : Bench} {e : ε} (hx : x.on b = (.error e, b'))
    (f : α → InPlace ε β) : (x >>= f).on b = (.error e, b') := by
  have hbind : (x >>= f).on b = ExceptT.bindCont f (x.on b).1 (x.on b).2 := rfl
  rw [hbind, hx]
  rfl

section

variable {γ δ : Type} {b : Bench} {x : InPlace ε α} {place : γ → α × Bench} {call : Except ε γ}

theorem settle_look (f : Machine → Except ε α) : (look f).on b = b.settle (·, b) (f b.machine) := by
  rw [look_on]
  cases f b.machine <;> rfl

theorem settle_adapt (hx : x.on b = b.settle place call) (f : ε → ε') :
    InPlace.on (x.adapt f) b = b.settle place (call.mapError f) := by
  have hadapt : InPlace.on (x.adapt f) b = ((x.on b).1.mapError f, (x.on b).2) := rfl
  rw [hadapt, hx]
  cases call <;> rfl

/-- Work behind work that has settled on the bench. Where the second part of the call fails, the
second part of the work has to leave the bench as it was before the first. -/
theorem settle_bind (hx : x.on b = b.settle place call) {f : α → InPlace ε β} {g : γ → Except ε δ}
    {place' : δ → β × Bench} (h : ∀ c, (f (place c).1).on (place c).2 = b.settle place' (g c)) :
    (x >>= f).on b = b.settle place' (call >>= g) := by
  cases call with
  | error e => exact bind_of_error hx f
  | ok c => exact (bind_of_ok hx f).trans (h c)

end

variable (b : Bench)

theorem setRegister_on (i v : UInt8) : (setRegister i v).on b =
    b.settle (fun r => ((), b.put r b.machine.mem)) (b.machine.regs.set i v) := by
  have hset : b.machine.regs.set i v = b.machine.regs.set i v >>= pure := (bind_pure _).symm
  rw [hset]
  exact settle_bind (settle_look _) fun r => rfl

theorem lower_on : lower.on b =
    b.settle (fun r => (r.sp, b.put r b.machine.mem)) (Stack.lower b.machine.regs) := by
  rw [lower, read_bind, Stack.lower]
  split
  · rfl
  · rw [Bench.settle, Registers.sp_setSp]
    rfl

theorem push_on (v : UInt8) : (push v).on b =
    b.settle (fun p => ((), b.put p.1 p.2)) (Stack.push b.machine.regs b.machine.mem v) :=
  settle_bind (lower_on b) fun _ => rfl

theorem pop_on : pop.on b =
    b.settle (fun p => (p.1, b.put p.2 b.machine.mem))
      (Stack.pop b.machine.regs b.machine.mem) := by
  rw [pop, read_bind, Stack.pop]
  split
  · rfl
  · rfl

theorem register_of_lt {i : UInt8} (hi : i.toNat < 8) :
    register i = read fun m => m.regs.gp[i.toNat] :=
  congrArg look (funext fun m => Registers.get_of_lt m.regs hi)

theorem setRegister_of_lt {i : UInt8} (hi : i.toNat < 8) (v : UInt8) : setRegister i v =
    change fun m => { m with regs := { m.regs with gp := m.regs.gp.set i.toNat v } } := by
  have hset : (fun m : Machine => m.regs.set i v) =
      fun m => .ok { m.regs with gp := m.regs.gp.set i.toNat v } :=
    funext fun m => Registers.set_of_lt m.regs v hi
  rw [setRegister, hset]
  rfl

theorem pushRegister_on (i : UInt8) : (pushRegister i).on b =
    b.settle (fun p => ((), b.put p.1 p.2))
      (Stack.pushRegister b.machine.regs b.machine.mem i) := by
  by_cases hi : i.toNat < 8
  · rw [pushRegister, register_of_lt hi]
    refine settle_bind (settle_adapt (settle_look _) _) fun _ =>
      settle_bind (lower_on b) fun r => ?_
    -- which registers there are does not depend on where the stack pointer stands
    rw [Registers.get_of_lt r hi]
    rfl
  · have hcheck : Registers.check i = .error ⟨i⟩ := if_neg hi
    rw [pushRegister, Stack.pushRegister, hcheck]
    rfl

theorem alu_on (op : Opcode) (i j : UInt8) : (alu op i j).on b =
    b.settle (fun r => ((), b.put r b.machine.mem)) (Alu.execute op b.machine.regs i j) := by
  cases h : op.isAlu with
  | false =>
    simp only [alu, Alu.execute, h]
    rfl
  | true =>
    rcases op.isAlu_iff.1 h with rfl | rfl | rfl
    · exact settle_bind (settle_adapt (settle_look _) _) fun x =>
        settle_bind (settle_adapt (settle_look _) _) fun y => settle_adapt (setRegister_on b i _) _
    · exact settle_bind (settle_adapt (settle_look _) _) fun x =>
        settle_bind (settle_adapt (settle_look _) _) fun y => settle_adapt (setRegister_on b i _) _
    · exact settle_bind (settle_adapt (settle_look _) _) fun x =>
        settle_bind (settle_adapt (settle_look _) _) fun y => rfl

/-- What an instruction does, on the bench. -/
def finish (b : Bench) (e : Effect) : Next × Bench :=
  (e.next, (b.put e.regs e.mem).printing e.printed)

theorem execute_on (refusal : UInt8 → Option String) (i : Instruction) : (execute refusal i).on b =
    b.settle (finish b) (i.execute refusal b.machine.regs b.machine.mem) := by
  obtain ⟨op, x, y⟩ := i
  cases op
  case hlt => rfl
  case ldi => exact settle_bind (settle_adapt (setRegister_on b x y) _) fun _ => rfl
  case prn =>
    refine settle_bind (settle_adapt (settle_look _) _) fun v => ?_
    dsimp only
    rw [print]
    cases refusal v <;> rfl
  case add | mul | cmp => exact settle_bind (settle_adapt (alu_on b _ x y) _) fun _ => rfl
  case push => exact settle_bind (settle_adapt (pushRegister_on b x) _) fun _ => rfl
  case pop =>
    by_cases hx : x.toNat < 8
    · refine settle_bind (settle_adapt (settle_look _) _) fun _ =>
        settle_bind (settle_adapt (pop_on b) _) fun p => ?_
      obtain ⟨v, r⟩ := p
      dsimp only
      -- the register that was there before the pop is there behind it
      rw [setRegister_of_lt hx, Registers.set_of_lt r v hx]
      rfl
    · have hcheck : Registers.check x = .error ⟨x⟩ := if_neg hx
      simp only [execute, Instruction.execute, hcheck]
      rfl
  case call =>
    refine settle_bind (settle_adapt (settle_look _) _) fun target => ?_
    rw [read_bind]
    split
    · exact settle_bind (settle_adapt (push_on b _) _) fun _ => rfl
    · rfl
  case ret => exact settle_bind (settle_adapt (pop_on b) _) fun _ => rfl
  case jmp | jeq | jne => exact settle_bind (settle_adapt (settle_look _) _) fun _ => rfl

theorem unchanged_of_execute_failed {refusal : UInt8 → Option String} {i : Instruction} {b' : Bench}
    {f : Fault} (h : (execute refusal i).on b = (.error f, b')) : b' = b :=
  Bench.eq_of_settle_error ((execute_on b refusal i).symm.trans h)

theorem proceed_on (op : Opcode) (next : Next) : (proceed op next).on b =
    b.settle (fun p => ((), { b with machine := p.1, log := b.log ++ p.2 }))
      (b.machine.proceed op next) := by
  cases next with
  | advance width =>
    rw [proceed, read_bind, Machine.proceed]
    dsimp only
    split
    · rw [Bench.settle, List.append_nil]
      rfl
    · rfl
  | jump target => rfl
  | halt => rfl

theorem finish_eq (e : Effect) : (finish b e).2 =
    ⟨{ b.machine with regs := e.regs, mem := e.mem }, b.printed ++ e.printed.toList, b.log⟩ := by
  unfold finish Bench.printing
  cases e.printed with
  | none => rw [Option.toList_none, List.append_nil]; rfl
  | some v => rfl

theorem cycles_of_proceed {m m' : Machine} {op : Opcode} {next : Next} {log : List Event}
    (h : m.proceed op next = .ok (m', log)) : m'.cycles = m.cycles := by
  cases next with
  | advance width =>
    unfold Machine.proceed at h
    dsimp only at h
    split at h <;> cases h
    rfl
  | jump target => cases h; rfl
  | halt => cases h; rfl

theorem carryOut_on (refusal : UInt8 → Option String) (i : Instruction) :
    (carryOut refusal i).on b = b.after (b.machine.carryOut refusal i) := by
  have hexecute := execute_on b refusal i
  rw [carryOut, Machine.carryOut]
  cases he : i.execute refusal b.machine.regs b.machine.mem with
  | error f =>
    rw [he] at hexecute
    simp only [bind_of_error hexecute, Bench.after, Option.toList_none, List.append_nil]
  | ok e =>
    rw [he] at hexecute
    rw [bind_of_ok hexecute, finish_eq]
    have hproceed := proceed_on ⟨{ b.machine with regs := e.regs, mem := e.mem },
      b.printed ++ e.printed.toList, b.log⟩ i.opcode e.next
    dsimp only at hproceed ⊢
    cases hp : Machine.proceed { b.machine with regs := e.regs, mem := e.mem } i.opcode e.next with
    | error f =>
      rw [hp] at hproceed
      simp only [Bench.after, List.append_nil]
      exact bind_of_error hproceed _
    | ok p =>
      obtain ⟨moved, log⟩ := p
      rw [hp] at hproceed
      have hcycles := cycles_of_proceed hp
      dsimp only at hcycles
      refine (bind_of_ok hproceed _).trans ?_
      simp only [Bench.after, ← hcycles]
      rfl

/-- A step in place comes to the same as a step that gives back what is left of the machine, on
whatever bench it is taken. -/
theorem step_on (refusal : UInt8 → Option String) :
    (step refusal).on b = b.after (b.machine.step refusal) := by
  rw [step, read_bind]
  dsimp only [id]
  by_cases hhalted : b.machine.state = .halted
  · rw [if_pos hhalted, Machine.step_of_halted hhalted]
    simp only [Bench.after, Option.toList_none, List.append_nil]
    rfl
  · have hrunning : b.machine.state = .running := by
      cases hs : b.machine.state with
      | running => rfl
      | halted => exact absurd hs hhalted
    rw [if_neg hhalted]
    cases hfetch : b.machine.fetch with
    | error f =>
      have hlook : (look Machine.fetch).on b = (.error f, b) := by rw [look_on, hfetch]
      rw [bind_of_error hlook]
      simp only [Machine.step, hrunning, hfetch, Bench.after, Option.toList_none, List.append_nil]
    | ok i =>
      have hlook : (look Machine.fetch).on b = (.ok i, b) := by rw [look_on, hfetch]
      have hreport : (report (ε := Fault) (.fetched b.machine.view i)).on b =
        (.ok (), { b with log := b.log ++ [.fetched b.machine.view i] }) := rfl
      rw [bind_of_ok hlook, bind_of_ok hreport, carryOut_on,
        Machine.step_eq_carryOut hrunning hfetch]
      simp only [Bench.after, List.append_assoc, List.singleton_append]

end InPlace

end LS8
