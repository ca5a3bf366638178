import LS8.Proofs.InstructionTable
import LS8.Session
/-! Calls on the stack, in any order, some of which fail. A call pushes a byte, takes one off or does
nothing (`Move`), and the pile is what has been pushed and not been taken off, without a look at
memory. The cells from the stack pointer on hold the pile, and behind the pile nothing has been
written yet (`Shows`), for what is popped from there is out of reach of every later push. So a pop
gives back the top of the pile, or a byte that has always been there. -/

namespace LS8.Session

def Request.OnStack : Request → Prop
  | .push _ | .pushRegister _ | .pop => True
  | _ => False

inductive Move where
  | push (cell value : UInt8)
  | pop
  | stay
deriving DecidableEq

/-- The pile after a move, the last byte first. -/
def Move.pile (l : List UInt8) : Move → List UInt8
  | push _ v => v :: l
  | pop => l.tail
  | stay => l

def Result.isFailed : Result → Bool
  | failed _ => true
  | _ => false

/-- The move of a call, none where it fails. The stack pointer is pushed as it stands after the
push. -/
def Request.move (m : Machine) (r : Request) : Move :=
  if (perform m r).result.isFailed then .stay
  else match r with
    | .push v => .push (m.regs.sp - 1) v
    | .pushRegister i => .push (m.regs.sp - 1) (if i = 7 then m.regs.sp - 1 else m.regs.value i)
    | .pop => .pop
    | _ => .stay

def moves (m : Machine) : List Request → List Move
  | [] => []
  | r :: rs => r.move m :: moves (perform m r).run.machine rs

/-- What calls have pushed and not popped, the last byte first. -/
def pile (m : Machine) (calls : List Request) : List UInt8 :=
  (moves m calls).foldl Move.pile []

variable {m₀ m : Machine} {r : Request} {l : List UInt8} {calls : List Request}

def pushed (m : Machine) (v : UInt8) : Machine :=
  { m with regs := m.regs.put 7 (m.regs.sp - 1), mem := m.mem.write (m.regs.sp - 1) v }

def popped (m : Machine) : Machine :=
  { m with regs := m.regs.put 7 (m.regs.sp + 1) }

theorem sp_pushed (m : Machine) (v : UInt8) : (pushed m v).regs.sp = m.regs.sp - 1 :=
  m.regs.value_put_seven _

theorem sp_popped (m : Machine) : (popped m).regs.sp = m.regs.sp + 1 :=
  m.regs.value_put_seven _

theorem perform_push (m : Machine) (v : UInt8) : perform m (.push v) =
    if m.regs.sp = 0 then .quiet m (.failed (.stack .overflow)) else .quiet (pushed m v) .done := by
  rw [perform, Stack.push_eq, ← Registers.sp_eq_value]
  split <;> rfl

theorem perform_pushRegister (m : Machine) (i : UInt8) : perform m (.pushRegister i) =
    if 8 ≤ i.toNat then .quiet m (.failed (.stack (.register ⟨i⟩)))
    else if m.regs.sp = 0 then .quiet m (.failed (.stack .overflow))
    else .quiet (pushed m (if i = 7 then m.regs.sp - 1 else m.regs.value i)) .done := by
  by_cases hi : i.toNat < 8
  · rw [if_neg (Nat.not_le.2 hi), perform, Stack.pushRegister_eq _ _ hi, ← Registers.sp_eq_value]
    split <;> rfl
  · have hc : Registers.check i = .error ⟨i⟩ := if_neg hi
    rw [if_pos (Nat.not_lt.1 hi), perform, Stack.pushRegister, hc]
    rfl

theorem perform_pop (m : Machine) : perform m .pop =
    if m.regs.sp = 0xFF then .quiet m (.failed (.stack .underflow))
    else .quiet (popped m) (.byte (m.mem.read m.regs.sp)) := by
  rw [perform, Stack.pop_eq, ← Registers.sp_eq_value]
  split <;> rfl

/-- A call on the stack, taken apart: it fails and changes nothing, or it pushes or pops a byte. -/
theorem perform_onStack (m : Machine) (h : r.OnStack) :
    ((∃ f, perform m r = .quiet m (.failed (.stack f))) ∧ r.move m = .stay) ∨
    (∃ v, m.regs.sp ≠ 0 ∧ perform m r = .quiet (pushed m v) .done ∧
      r.move m = .push (m.regs.sp - 1) v) ∨
    (m.regs.sp ≠ 0xFF ∧ perform m r = .quiet (popped m) (.byte (m.mem.read m.regs.sp)) ∧
      r.move m = .pop) := by
  cases r
  case push v =>
    have hp := perform_push m v
    split at hp
    · exact .inl ⟨⟨_, hp⟩, by rw [Request.move, hp]; rfl⟩
    next hsp => exact .inr (.inl ⟨v, hsp, hp, by rw [Request.move, hp]; rfl⟩)
  case pushRegister i =>
    have hp := perform_pushRegister m i
    split at hp
    · exact .inl ⟨⟨_, hp⟩, by rw [Request.move, hp]; rfl⟩
    · split at hp
      · exact .inl ⟨⟨_, hp⟩, by rw [Request.move, hp]; rfl⟩
      next hsp => exact .inr (.inl ⟨_, hsp, hp, by rw [Request.move, hp]; rfl⟩)
  case pop =>
    have hp := perform_pop m
    split at hp
    · exact .inl ⟨⟨_, hp⟩, by rw [Request.move, hp]; rfl⟩
    next hsp => exact .inr (.inr ⟨hsp, hp, by rw [Request.move, hp]; rfl⟩)
  all_goals cases h

/-- The stack of `m` shows the pile `l`, and but for the stack it is as it was in `m₀`. -/
structure Shows (m₀ : Machine) (l : List UInt8) (m : Machine) : Prop where
  regs : m.regs = m₀.regs.put 7 m.regs.sp
  cells : ∀ (i : Nat) (h : i < l.length) (a : UInt8), a.toNat = m.regs.sp.toNat + i →
    m.mem.read a = l[i]
  behind : ∀ a : UInt8, m.regs.sp.toNat + l.length ≤ a.toNat → m.mem.read a = m₀.mem.read a

theorem Shows.start (m₀ : Machine) : Shows m₀ [] m₀ where
  regs := by rw [← Registers.setSp_eq_put, Registers.setSp_sp]
  cells := fun i h => absurd h (Nat.not_lt_zero i)
  behind := fun _ _ => rfl

/-- What a pop reads is the top of the pile, or a byte behind it. -/
theorem Shows.read_sp (h : Shows m₀ l m) :
    m.mem.read m.regs.sp = l.headD (m₀.mem.read m.regs.sp) := by
  cases l with
  | nil => exact h.behind _ (Nat.le_refl _)
  | cons v l => exact h.cells 0 (Nat.zero_lt_succ _) _ rfl

theorem Shows.push (h : Shows m₀ l m) (hsp : m.regs.sp ≠ 0) (v : UInt8) :
    Shows m₀ (v :: l) (pushed m v) := by
  have hnew : (pushed m v).regs.sp.toNat + 1 = m.regs.sp.toNat := by
    have := one_le_toNat_iff.2 hsp
    rw [sp_pushed, toNat_pred hsp]
    omega
  have hread (a : UInt8) : (pushed m v).mem.read a =
      if (pushed m v).regs.sp.toNat = a.toNat then v else m.mem.read a := by
    simp only [sp_pushed, UInt8.toNat_inj]
    exact m.mem.read_write ..
  refine ⟨?_, fun i hi a ha => ?_, fun a ha => ?_⟩
  · rw [sp_pushed, pushed, h.regs, Registers.put_put, ← h.regs]
  · rw [hread]
    cases i with
    | zero => rw [if_pos (by omega), List.getElem_cons_zero]
    | succ i =>
      rw [if_neg (by omega), List.getElem_cons_succ]
      exact h.cells i (Nat.lt_of_succ_lt_succ hi) a (by omega)
  · rw [List.length_cons] at ha
    rw [hread, if_neg (by omega)]
    exact h.behind a (by omega)

theorem Shows.pop (h : Shows m₀ l m) (hsp : m.regs.sp ≠ 0xFF) : Shows m₀ l.tail (popped m) := by
  have hnew : (popped m).regs.sp.toNat = m.regs.sp.toNat + 1 := by
    rw [sp_popped, toNat_succ hsp]
  refine ⟨?_, fun i hi a ha => ?_, fun a ha => ?_⟩
  · rw [sp_popped, popped, h.regs, Registers.put_put, ← h.regs]
  · rw [List.length_tail] at hi
    rw [List.getElem_tail]
    exact h.cells (i + 1) (by omega) a (by omega)
  · rw [List.length_tail] at ha
    exact h.behind a (by omega)

/-- A call on the stack keeps the pile in view. -/
theorem Shows.perform (h : Shows m₀ l m) (hr : r.OnStack) :
    Shows m₀ ((r.move m).pile l) (perform m r).run.machine := by
  rcases perform_onStack m hr with ⟨⟨f, hp⟩, hmove⟩ | ⟨v, hsp, hp, hmove⟩ | ⟨hsp, hp, hmove⟩
  all_goals rw [hp, hmove]
  · exact h
  · exact h.push hsp v
  · exact h.pop hsp

/-- By induction on the calls, so do calls one after another. -/
theorem Shows.after (h : Shows m₀ l m) (hcalls : ∀ r ∈ calls, r.OnStack) :
    Shows m₀ ((moves m calls).foldl Move.pile l) (after m calls) := by
  induction calls generalizing l m with
  | nil => exact h
  | cons r rs ih =>
    obtain ⟨hr, hrs⟩ := List.forall_mem_cons.1 hcalls
    exact ih (h.perform hr) hrs

/-- A cell that no call has pushed to is as it was. -/
theorem read_after_of_not_pushed {a : UInt8} (hcalls : ∀ r ∈ calls, r.OnStack)
    (ha : ∀ v, .push a v ∉ moves m calls) : (after m calls).mem.read a = m.mem.read a := by
  induction calls generalizing m with
  | nil => rfl
  | cons r rs ih =>
    obtain ⟨hr, hrs⟩ := List.forall_mem_cons.1 hcalls
    refine (ih hrs fun v hv => ha v (.tail _ hv)).trans ?_
    rcases perform_onStack m hr with ⟨⟨f, hp⟩, -⟩ | ⟨v, -, hp, hmove⟩ | ⟨-, hp, -⟩
    all_goals rw [hp]
    · rfl
    · have hne : m.regs.sp - 1 ≠ a := by
        rintro rfl
        exact ha v (by simp [moves, hmove])
      change (pushed m v).mem.read a = _
      rw [pushed, Memory.read_write, if_neg hne]
    · rfl

/-- Calls on the stack are last in, first out, whatever calls come before and however many of them
fail. -/
theorem stack_calls_are_lifo (m : Machine) (calls : List Request)
    (hcalls : ∀ r ∈ calls, r.OnStack) :
    let now := after m calls
    let sp := now.regs.sp
    (∀ v, (perform now (.push v)).result =
      if sp = 0 then .failed (.stack .overflow) else .done) ∧
    (∀ i, (perform now (.pushRegister i)).result =
      if 8 ≤ i.toNat then .failed (.stack (.register ⟨i⟩))
      else if sp = 0 then .failed (.stack .overflow) else .done) ∧
    (perform now .pop).result =
      (if sp = 0xFF then .failed (.stack .underflow)
      else .byte ((pile m calls).headD (m.mem.read sp))) ∧
    (∀ r, r.OnStack → (perform now r).result.isFailed = true → (perform now r).run.machine = now) ∧
    (∀ i, i ≠ 7 → now.regs.get i = m.regs.get i) ∧
    now.regs.pc = m.regs.pc ∧ now.regs.fl = m.regs.fl ∧
    ∀ a, (∀ v, .push a v ∉ moves m calls) → now.mem.read a = m.mem.read a := by
  intro now sp
  have hshows : Shows m (pile m calls) now := (Shows.start m).after hcalls
  refine ⟨fun v => ?_, fun i => ?_, ?_, fun r hr hfailed => ?_, fun i hi => ?_, ?_, ?_,
    fun a => read_after_of_not_pushed hcalls⟩
  · rw [perform_push]
    split <;> rfl
  · rw [perform_pushRegister]
    split
    · rfl
    · split <;> rfl
  · rw [perform_pop, ← hshows.read_sp]
    split <;> rfl
  · rcases perform_onStack now hr with ⟨⟨f, hp⟩, -⟩ | ⟨v, -, hp, -⟩ | ⟨-, hp, -⟩
    · rw [hp]
      rfl
    · rw [hp] at hfailed
      cases hfailed
    · rw [hp] at hfailed
      cases hfailed
  · rw [hshows.regs, Registers.get_set (m.regs.set_eq_put _ (by decide)), if_neg hi]
  · rw [hshows.regs]
    rfl
  · rw [hshows.regs]
    rfl

/-- A machine whose stack pointer stands one cell below the last. -/
def nearTop : Machine :=
  { Machine.powerOn with
    regs := Registers.powerOn.put 7 0xFE
    mem := Memory.blank.write 0xFE 0x11 }

/-- Pops beyond the start and one too many, then pushes over what was popped, one of them of a
register that does not exist. -/
def strayCalls : List Request :=
  [.pop, .pop, .pushRegister 7, .pushRegister 8, .push 5, .pop]

theorem nearTop_is_lifo :
    (∀ r ∈ strayCalls, r.OnStack) ∧
      moves nearTop strayCalls =
        [.pop, .stay, .push 0xFE 0xFE, .stay, .push 0xFD 5, .pop] ∧
      (perform (after nearTop strayCalls) .pop).result = .byte 0xFE ∧
      (after nearTop strayCalls).mem.read 0xFF = nearTop.mem.read 0xFF := by
  have hcalls : ∀ r ∈ strayCalls, r.OnStack := by
    intro r hr
    simp only [strayCalls, List.mem_cons, List.not_mem_nil, or_false] at hr
    rcases hr with rfl | rfl | rfl | rfl | rfl | rfl <;> trivial
  have hmoves : moves nearTop strayCalls =
      [.pop, .stay, .push 0xFE 0xFE, .stay, .push 0xFD 5, .pop] := by
    decide +kernel
  have hsp : (after nearTop strayCalls).regs.sp = 0xFE := by decide +kernel
  obtain ⟨-, -, hpop, -, -, -, -, hcells⟩ := stack_calls_are_lifo nearTop strayCalls hcalls
  refine ⟨hcalls, hmoves, ?_, hcells 0xFF fun v => ?_⟩
  · rw [hpop, hsp, pile, hmoves]
    rfl
  · rw [hmoves]
    simp

end LS8.Session
