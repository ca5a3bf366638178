import LS8.Machine.Step
/-! The instruction table: for each operation its length, the operands that name registers, what it
pushes and prints, the registers, the memory and the program counter after it, and the faults that
stop it in the order in which they are found. The table knows registers by `value` and `put` only,
which are total. It shares with the way an instruction is carried out how a cell of memory is read
and written and how the flags are asked for equality, and nothing else; `execute_eq` says that
carrying out an instruction does what the table says. -/

namespace LS8

open Registers

theorem ok_bind {ε α β : Type} (a : α) (f : α → Except ε β) : (Except.ok a >>= f) = f a := rfl

theorem ok_mapError {ε ε' α : Type} (a : α) (f : ε → ε') :
    (Except.ok a : Except ε α).mapError f = .ok a := rfl

theorem ofNat_add_mod (x y : UInt8) : UInt8.ofNat ((x.toNat + y.toNat) % 256) = x + y :=
  UInt8.toNat_inj.1 (by simp)

theorem ofNat_mul_mod (x y : UInt8) : UInt8.ofNat ((x.toNat * y.toNat) % 256) = x * y :=
  UInt8.toNat_inj.1 (by simp)

theorem one_le_toNat_iff {s : UInt8} : 1 ≤ s.toNat ↔ s ≠ 0 := by
  rw [Ne, ← UInt8.toNat_inj]
  exact Nat.one_le_iff_ne_zero

theorem toNat_le_iff {s : UInt8} : s.toNat ≤ 254 ↔ s ≠ 0xFF := by
  have h : (0xFF : UInt8).toNat = 255 := rfl
  have := s.toNat_lt
  rw [Ne, ← UInt8.toNat_inj, h]
  omega

theorem toNat_pred {s : UInt8} (h : s ≠ 0) : (s - 1).toNat = s.toNat - 1 :=
  UInt8.toNat_sub_of_le _ _ (UInt8.le_iff_toNat_le.2 (one_le_toNat_iff.2 h))

theorem toNat_add_ofNat {s : UInt8} {n : Nat} (h : s.toNat + n < 256) :
    (s + UInt8.ofNat n).toNat = s.toNat + n := by
  rw [UInt8.toNat_add, UInt8.toNat_ofNat', Nat.mod_eq_of_lt (by omega : n < 2 ^ 8)]
  exact Nat.mod_eq_of_lt h

theorem toNat_succ {s : UInt8} (h : s ≠ 0xFF) : (s + 1).toNat = s.toNat + 1 := by
  have := toNat_le_iff.2 h
  exact toNat_add_ofNat (n := 1) (by omega)

namespace Registers

/-- The value of the register that a byte names, zero where it names none. -/
def value (r : Registers) (i : UInt8) : UInt8 :=
  r.gp[i.toNat]?.getD 0

/-- The file with the register that a byte names replaced, unchanged where it names none. -/
def put (r : Registers) (i v : UInt8) : Registers :=
  { r with gp := r.gp.setIfInBounds i.toNat v }

variable (r : Registers)

@[simp] theorem pc_put (i v : UInt8) : (r.put i v).pc = r.pc := rfl

theorem value_put {i : UInt8} (hi : i.toNat < 8) (v j : UInt8) :
    (r.put i v).value j = if j = i then v else r.value j := by
  unfold value put
  rw [Vector.getElem?_setIfInBounds]
  by_cases h : i.toNat = j.toNat
  · rw [if_pos h, if_pos hi, if_pos (UInt8.toNat_inj.1 h.symm)]; rfl
  · rw [if_neg h, if_neg fun e => h (congrArg UInt8.toNat e.symm)]

@[simp] theorem value_put_seven (v : UInt8) : (r.put 7 v).value 7 = v := by
  rw [value_put r (by decide), if_pos rfl]

@[simp] theorem put_put (i v w : UInt8) : (r.put i v).put i w = r.put i w := by
  simp [put]

theorem sp_eq_value : r.sp = r.value 7 := rfl

theorem setSp_eq_put (v : UInt8) : r.setSp v = r.put 7 v := by
  simp only [setSp, put]
  congr 1
  exact Vector.ext fun i hi => by
    rw [Vector.getElem_set, Vector.getElem_setIfInBounds]; rfl

theorem get_eq_value {i : UInt8} (h : i.toNat < 8) : r.get i = .ok (r.value i) := by
  simp [get_of_lt r h, value, h]

theorem set_eq_put {i : UInt8} (v : UInt8) (h : i.toNat < 8) : r.set i v = .ok (r.put i v) := by
  rw [set_of_lt r v h, put]
  congr 2
  exact Vector.ext fun j hj => by rw [Vector.getElem_set, Vector.getElem_setIfInBounds]

end Registers

namespace Stack

variable (r : Registers) (m : Memory)

theorem lower_eq : lower r =
    if r.value 7 = 0 then .error .overflow else .ok (r.put 7 (r.value 7 - 1)) := by
  simp only [lower, sp_eq_value, setSp_eq_put]

theorem push_eq (v : UInt8) : push r m v =
    if r.value 7 = 0 then .error .overflow
    else .ok (r.put 7 (r.value 7 - 1), m.write (r.value 7 - 1) v) := by
  simp only [push, lower_eq]
  split
  · rfl
  · simp only [ok_bind, sp_eq_value, value_put_seven]; rfl

theorem pop_eq : pop r m =
    if r.value 7 = 0xFF then .error .underflow
    else .ok (m.read (r.value 7), r.put 7 (r.value 7 + 1)) := by
  simp only [pop, sp_eq_value, setSp_eq_put]

theorem pushRegister_eq {i : UInt8} (hi : i.toNat < 8) : pushRegister r m i =
    if r.value 7 = 0 then .error .overflow
    else .ok (r.put 7 (r.value 7 - 1),
      m.write (r.value 7 - 1) (if i = 7 then r.value 7 - 1 else r.value i)) := by
  have hv : (r.put 7 (r.value 7 - 1)).value i = if i = 7 then r.value 7 - 1 else r.value i :=
    value_put r (by decide) ..
  simp only [pushRegister, check_eq_ok_iff.2 hi, lower_eq]
  split
  · rfl
  · simp only [ok_mapError, ok_bind, get_eq_value _ hi, hv, sp_eq_value, value_put_seven]
    rfl

end Stack

def Flags.ofOrdering : Ordering → Flags
  | .lt => ⟨0b100⟩
  | .gt => ⟨0b010⟩
  | .eq => ⟨0b001⟩

theorem Flags.ofComparison_eq (x y : UInt8) :
    ofComparison x y = ofOrdering (compare x.toNat y.toNat) := by
  rcases Nat.lt_trichotomy x.toNat y.toNat with h | h | h
  · rw [ofComparison_of_lt h, Nat.compare_eq_lt.2 h]; rfl
  · rw [Nat.compare_eq_eq.2 h, UInt8.toNat_inj.1 h, ofComparison_self]; rfl
  · rw [ofComparison_of_gt h, Nat.compare_eq_gt.2 h]; rfl

def Opcode.size : Opcode → Nat
  | hlt | ret => 1
  | prn | push | pop | call | jmp | jeq | jne => 2
  | ldi | add | mul | cmp => 3

theorem Opcode.width_eq_size (op : Opcode) : op.width = op.size := by
  cases op <;> rfl

namespace Instruction

variable (i : Instruction) (r : Registers) (m : Memory)

/-- The operand bytes that name registers, in the order in which they are looked up. -/
def registerOperands : List UInt8 :=
  match i.opcode with
  | .hlt | .ret => []
  | .add | .mul | .cmp => [i.a, i.b]
  | _ => [i.a]

def fallsThrough (f : Flags) : Bool :=
  match i.opcode with
  | .hlt | .call | .ret | .jmp => false
  | .jeq => !f.isEqual
  | .jne => f.isEqual
  | _ => true

def printed : Option UInt8 :=
  if i.opcode = .prn then some (r.value i.a) else none

/-- The byte that is pushed. The stack pointer is pushed as it stands after the push, and a call
pushes the address of the next instruction. -/
def pushed : Option UInt8 :=
  match i.opcode with
  | .push => some (if i.a = 7 then r.value 7 - 1 else r.value i.a)
  | .call => some (r.pc + 2)
  | _ => none

def memAfter : Memory :=
  match i.pushed r with
  | some v => m.write (r.value 7 - 1) v
  | none => m

/-- Registers and flags afterwards; the program counter is not moved here. -/
def regsAfter : Registers :=
  match i.opcode with
  | .ldi => r.put i.a i.b
  | .add => r.put i.a (.ofNat (((r.value i.a).toNat + (r.value i.b).toNat) % 256))
  | .mul => r.put i.a (.ofNat (((r.value i.a).toNat * (r.value i.b).toNat) % 256))
  | .cmp =>
    { r with fl := .ofOrdering (compare (r.value i.a).toNat (r.value i.b).toNat) }
  | .push | .call => r.put 7 (r.value 7 - 1)
  | .pop => if i.a = 7 then r.put 7 (m.read (r.value 7))
    else (r.put 7 (r.value 7 + 1)).put i.a (m.read (r.value 7))
  | .ret => r.put 7 (r.value 7 + 1)
  | .hlt | .prn | .jmp | .jeq | .jne => r

def pcAfter : UInt8 :=
  match i.opcode with
  | .hlt => r.pc
  | .call | .jmp => r.value i.a
  | .ret => m.read (r.value 7)
  | .jeq => if r.fl.isEqual then r.value i.a else r.pc + 2
  | .jne => if r.fl.isEqual then r.pc + 2 else r.value i.a
  | .prn | .push | .pop => r.pc + 2
  | .ldi | .add | .mul | .cmp => r.pc + 3

/-- The first operand that should name a register and names none. -/
def badRegister : Option Fault :=
  (i.registerOperands.find? (8 ≤ ·.toNat)).map (.register ⟨·⟩)

/-- A call that has no address to return to. -/
def noReturn : Option Fault :=
  if i.opcode = .call ∧ 254 ≤ r.pc.toNat then some (.pcOutOfRange r.pc 2) else none

/-- A push at the first address or a pop at the last. -/
def stackLimit : Option Fault :=
  if (i.opcode = .push ∨ i.opcode = .call) ∧ r.value 7 = 0 then some .stackOverflow
  else if (i.opcode = .pop ∨ i.opcode = .ret) ∧ r.value 7 = 0xFF then some .stackUnderflow
  else none

def refused (refusal : UInt8 → Option String) : Option Fault :=
  (i.printed r).bind fun v => (refusal v).map .output

/-- Going on with the next instruction although memory ends. -/
def runsOff : Option Fault :=
  if i.fallsThrough r.fl ∧ 256 ≤ r.pc.toNat + i.opcode.size then
    some (.pcOutOfRange r.pc i.opcode.size)
  else none

def obstacle (refusal : UInt8 → Option String) : Option Fault :=
  i.badRegister.or ((i.noReturn r).or ((i.stackLimit r).or (i.refused r refusal)))

def next : Next :=
  if i.opcode = .hlt then .halt
  else if i.fallsThrough r.fl then .advance i.opcode.size
  else .jump (i.pcAfter r m)

variable {i r m} {refusal : UInt8 → Option String}

theorem badRegister_eq_none_iff :
    i.badRegister = none ↔ ∀ x ∈ i.registerOperands, x.toNat < 8 := by
  simp [badRegister]

theorem badRegister_one {x : UInt8} (h : i.registerOperands = [x]) :
    i.badRegister = if x.toNat < 8 then none else some (.register ⟨x⟩) := by
  unfold badRegister
  rw [h]
  by_cases hx : x.toNat < 8
  · simp [hx]
  · simp [hx, Nat.not_lt.1 hx]

theorem badRegister_two {x y : UInt8} (h : i.registerOperands = [x, y]) :
    i.badRegister = if x.toNat < 8 then
      if y.toNat < 8 then none else some (.register ⟨y⟩) else some (.register ⟨x⟩) := by
  unfold badRegister
  rw [h]
  by_cases hx : x.toNat < 8
  · by_cases hy : y.toNat < 8
    · simp [hx, hy]
    · simp [hx, hy, Nat.not_lt.1 hy]
  · simp [hx, Nat.not_lt.1 hx]

theorem noReturn_of_ne (h : i.opcode ≠ .call) : i.noReturn r = none :=
  if_neg fun e => h e.1

theorem noReturn_of_call (h : i.opcode = .call) :
    i.noReturn r = if r.pc.toNat + 2 < 256 then none else some (.pcOutOfRange r.pc 2) := by
  unfold noReturn
  split
  next hc => rw [if_neg (by omega)]
  next hc =>
    rw [if_pos]
    have : ¬ 254 ≤ r.pc.toNat := fun e => hc ⟨h, e⟩
    omega

theorem not_pop_of_push (h : i.opcode = .push ∨ i.opcode = .call) :
    ¬ (i.opcode = .pop ∨ i.opcode = .ret) := by
  rcases h with h | h <;> rw [h] <;> decide

theorem stackLimit_of_push (h : i.opcode = .push ∨ i.opcode = .call) :
    i.stackLimit r = if r.value 7 = 0 then some .stackOverflow else none := by
  simp only [stackLimit, h, not_pop_of_push h, true_and, false_and, if_false]

theorem stackLimit_of_pop (h : i.opcode = .pop ∨ i.opcode = .ret) :
    i.stackLimit r = if r.value 7 = 0xFF then some .stackUnderflow else none := by
  have hp : ¬ (i.opcode = .push ∨ i.opcode = .call) := fun e => not_pop_of_push e h
  simp only [stackLimit, h, hp, true_and, false_and, if_false]

theorem memAfter_of_pushed {v : UInt8} (h : i.pushed r = some v) :
    i.memAfter r m = m.write (r.value 7 - 1) v := by
  rw [memAfter, h]

theorem memAfter_of_ne_push (h : ¬ (i.opcode = .push ∨ i.opcode = .call)) :
    i.memAfter r m = m := by
  obtain ⟨op, a, b⟩ := i
  cases op
  case push | call => simp at h
  all_goals rfl

theorem sp_of_push (h : i.opcode = .push ∨ i.opcode = .call) :
    (i.regsAfter r m).value 7 = r.value 7 - 1 := by
  rcases h with h | h <;> rw [regsAfter, h] <;> exact r.value_put_seven _

theorem sp_of_pop (h : i.opcode = .pop ∨ i.opcode = .ret) (h7 : i.opcode = .pop → i.a ≠ 7)
    (hi : ∀ x ∈ i.registerOperands, x.toNat < 8) :
    (i.regsAfter r m).value 7 = r.value 7 + 1 := by
  obtain ⟨op, a, b⟩ := i
  rcases h with rfl | rfl
  · have h7 : a ≠ 7 := h7 rfl
    simp only [regsAfter, if_neg h7]
    rw [value_put _ (hi a (.head _)), if_neg h7.symm, value_put_seven]
  · exact r.value_put_seven _

theorem value_of_pop (h : i.opcode = .pop) (ha : i.a.toNat < 8) :
    (i.regsAfter r m).value i.a = m.read (r.value 7) := by
  rw [regsAfter, h]
  dsimp only
  by_cases h7 : i.a = 7
  · rw [if_pos h7, h7, value_put_seven]
  · rw [if_neg h7, value_put _ ha, if_pos rfl]

/-- Besides pushes and pops, only what is written to the stack pointer by name moves it. -/
theorem sp_of_ne (hpush : ¬ (i.opcode = .push ∨ i.opcode = .call))
    (hpop : ¬ (i.opcode = .pop ∨ i.opcode = .ret))
    (h7 : i.opcode = .ldi ∨ i.opcode = .add ∨ i.opcode = .mul → i.a ≠ 7)
    (hi : ∀ x ∈ i.registerOperands, x.toNat < 8) :
    (i.regsAfter r m).value 7 = r.value 7 := by
  have hput (ha : i.a.toNat < 8) (hne : i.a ≠ 7) (v : UInt8) :
      (r.put i.a v).value 7 = r.value 7 := by
    rw [value_put _ ha, if_neg hne.symm]
  obtain ⟨op, a, b⟩ := i
  cases op
  case push | call => simp at hpush
  case pop | ret => simp at hpop
  case ldi | add | mul => exact hput (hi a (.head _)) (h7 (by simp)) _
  all_goals rfl

/-- Whatever else is wrong, a missing register is found first. -/
theorem execute_of_badRegister {f : Fault} (h : i.badRegister = some f) :
    i.execute refusal r m = .error f := by
  obtain ⟨op, a, b⟩ := i
  cases op
  case hlt | ret => cases h
  case add | mul | cmp =>
    rw [badRegister_two rfl] at h
    split at h
    next ha =>
      split at h <;> cases h
      next hb =>
        simp only [execute, Alu.execute, get_eq_value _ ha, get_of_le _ (Nat.not_lt.1 hb)]; rfl
    next ha =>
      cases h
      simp only [execute, Alu.execute, get_of_le _ (Nat.not_lt.1 ha)]; rfl
  all_goals
    rw [badRegister_one rfl] at h
    split at h <;> cases h
    rename_i ha
    have hc : Registers.check a = .error ⟨a⟩ := if_neg ha
    simp only [execute, Stack.pushRegister, hc, get_of_le _ (Nat.not_lt.1 ha),
      set_of_le _ _ (Nat.not_lt.1 ha)]
    rfl

theorem execute_alu (m : Memory) (h : i.opcode = .add ∨ i.opcode = .mul ∨ i.opcode = .cmp)
    (ha : i.a.toNat < 8) (hb : i.b.toNat < 8) :
    Alu.execute i.opcode r i.a i.b = .ok (i.regsAfter r m) := by
  obtain ⟨op, a, b⟩ := i
  rcases h with rfl | rfl | rfl
  · simp only [Alu.execute, get_eq_value _ ha, get_eq_value _ hb, set_eq_put _ _ ha, regsAfter,
      ofNat_add_mod]
    rfl
  · simp only [Alu.execute, get_eq_value _ ha, get_eq_value _ hb, set_eq_put _ _ ha, regsAfter,
      ofNat_mul_mod]
    rfl
  · simp only [Alu.execute, get_eq_value _ ha, get_eq_value _ hb, regsAfter,
      ← Flags.ofComparison_eq]
    rfl

/-- An instruction whose registers exist does what the table says. -/
theorem execute_of_registers (hi : ∀ x ∈ i.registerOperands, x.toNat < 8) :
    i.execute refusal r m =
      match (i.noReturn r).or ((i.stackLimit r).or (i.refused r refusal)) with
      | some f => .error f
      | none => .ok ⟨i.regsAfter r m, i.memAfter r m, i.printed r, i.next r m⟩ := by
  have halu := execute_alu (i := i) (r := r) m
  obtain ⟨op, a, b⟩ := i
  cases op with
  | hlt => rfl
  | ldi => simp only [execute, set_eq_put _ _ (hi a (.head _))]; rfl
  | prn =>
    simp only [execute, get_eq_value _ (hi a (.head _)), ok_mapError, ok_bind]
    have hf : refused ⟨.prn, a, b⟩ r refusal = (refusal (r.value a)).map .output := rfl
    rw [noReturn_of_ne (by simp), hf]
    cases refusal (r.value a) <;> rfl
  | add => simp only [execute, halu (.inl rfl) (hi a (.head _)) (hi b (.tail _ (.head _)))]; rfl
  | mul => simp only [execute, halu (.inr (.inl rfl)) (hi a (.head _)) (hi b (.tail _ (.head _)))]; rfl
  | cmp => simp only [execute, halu (.inr (.inr rfl)) (hi a (.head _)) (hi b (.tail _ (.head _)))]; rfl
  | push =>
    rw [noReturn_of_ne (by simp), stackLimit_of_push (.inl rfl)]
    simp only [execute, Stack.pushRegister_eq _ _ (hi a (.head _))]
    split <;> rfl
  | pop =>
    have ha : a.toNat < 8 := hi a (.head _)
    have hr : regsAfter ⟨.pop, a, b⟩ r m = (r.put 7 (r.value 7 + 1)).put a (m.read (r.value 7)) := by
      by_cases h7 : a = 7 <;> simp [regsAfter, h7]
    rw [noReturn_of_ne (by simp), stackLimit_of_pop (.inl rfl), hr]
    simp only [execute, check_eq_ok_iff.2 ha, Stack.pop_eq]
    split
    · rfl
    · simp only [ok_mapError, ok_bind, set_eq_put _ _ ha]; rfl
  | call =>
    rw [noReturn_of_call rfl, stackLimit_of_push (.inr rfl)]
    simp only [execute, get_eq_value _ (hi a (.head _)), Stack.push_eq,
      Opcode.width_eq_size, Opcode.size]
    by_cases h : r.value 7 = 0
    · simp only [if_pos h]
      split <;> rfl
    · simp only [if_neg h]
      split <;> rfl
  | ret =>
    rw [noReturn_of_ne (by simp), stackLimit_of_pop (.inr rfl)]
    simp only [execute, Stack.pop_eq]
    split <;> rfl
  | jmp => simp only [execute, get_eq_value _ (hi a (.head _))]; rfl
  | jeq | jne =>
    simp only [execute, get_eq_value _ (hi a (.head _)), next, fallsThrough,
      pcAfter]
    cases r.fl.isEqual <;> rfl

/-- Carrying out an instruction does what the table says. -/
theorem execute_eq : i.execute refusal r m =
    match i.obstacle r refusal with
    | some f => .error f
    | none => .ok ⟨i.regsAfter r m, i.memAfter r m, i.printed r, i.next r m⟩ := by
  cases h : i.badRegister with
  | none => rw [execute_of_registers (badRegister_eq_none_iff.1 h), obstacle, h, Option.none_or]
  | some f => rw [execute_of_badRegister h, obstacle, h, Option.some_or]

end Instruction

end LS8
