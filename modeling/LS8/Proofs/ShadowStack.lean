import LS8.Proofs.Execution
/-! The stack in memory against a list kept beside it. The list grows by what a push or a call writes
and shrinks at a pop or a return, and never looks at memory. As long as only these four instructions
move the stack pointer and none of them pops an empty list, memory below the first stack pointer
mirrors the list, and pops and returns give its head back. -/

namespace LS8

/-- What a push or a call adds: a value, or the place of the call to which it will return. -/
inductive Entry where
  | value (v : UInt8)
  | returnOf (pc : UInt8)
deriving DecidableEq

def Entry.byte : Entry → UInt8
  | value v => v
  | returnOf pc => pc + 2

namespace Turn

def shadow (l : List Entry) (t : Turn) : List Entry :=
  match t.instr.opcode with
  | .push => .value (if t.instr.a = 7 then t.before.regs.value 7 - 1
      else t.before.regs.value t.instr.a) :: l
  | .call => .returnOf t.before.regs.pc :: l
  | .pop | .ret => l.tail
  | _ => l

def Pops (t : Turn) : Prop :=
  t.instr.opcode = .pop ∨ t.instr.opcode = .ret

/-- The stack pointer is the destination of a load, a sum, a product or a pop. -/
def SetsSp (t : Turn) : Prop :=
  t.instr.a = 7 ∧ (t.instr.opcode = .ldi ∨ t.instr.opcode = .add ∨ t.instr.opcode = .mul ∨
    t.instr.opcode = .pop)

instance (t : Turn) : Decidable t.Pops :=
  inferInstanceAs (Decidable (_ ∨ _))

instance (t : Turn) : Decidable t.SetsSp :=
  inferInstanceAs (Decidable (_ ∧ _))

end Turn

def shadowStack (ts : List Turn) : List Entry :=
  ts.foldl Turn.shadow []

/-- Memory and stack pointer of `m` show the list `l` below the stack pointer of `m₀`, after the
turns `ts`. -/
structure Mirrors (m₀ : Machine) (ts : List Turn) (l : List Entry) (m : Machine) : Prop where
  sp : ((m.regs.value 7).toNat : Int) = (m₀.regs.value 7).toNat - l.length
  cells : ∀ (i : Nat) (h : i < l.length) (a : UInt8), a.toNat = (m.regs.value 7).toNat + i →
    m.mem.read a = l[i].byte
  above : ∀ a : UInt8, m₀.regs.value 7 ≤ a → m.mem.read a = m₀.mem.read a
  below : ∀ a : UInt8, a < m₀.regs.value 7 → (∀ t ∈ ts, a < t.after.regs.value 7) →
    m.mem.read a = m₀.mem.read a
  calls : ∀ pc, .returnOf pc ∈ l → pc.toNat + 2 ≤ 255

variable {m₀ m : Machine} {ts : List Turn} {t : Turn}

theorem Mirrors.start (m₀ : Machine) : Mirrors m₀ [] [] m₀ where
  sp := by simp
  cells := fun i h => absurd h (Nat.not_lt_zero i)
  above := fun _ _ => rfl
  below := fun _ _ _ => rfl
  calls := fun pc h => absurd h (by simp)

theorem Mirrors.head {l : List Entry} {e : Entry} (h : Mirrors m₀ ts (e :: l) m) :
    m.mem.read (m.regs.value 7) = e.byte :=
  h.cells 0 (Nat.zero_lt_succ _) _ rfl

/-- A turn that writes only where the list now ends keeps what lies around the list. -/
theorem Mirrors.next {l l' : List Entry} (h : Mirrors m₀ ts l t.before)
    (hsp : ((t.after.regs.value 7).toNat : Int) = (m₀.regs.value 7).toNat - l'.length)
    (hcells : ∀ (i : Nat) (hi : i < l'.length) (a : UInt8),
      a.toNat = (t.after.regs.value 7).toNat + i → t.after.mem.read a = l'[i].byte)
    (hkeep : ∀ a : UInt8, m₀.regs.value 7 ≤ a ∨ a < t.after.regs.value 7 →
      t.after.mem.read a = t.before.mem.read a)
    (hcalls : ∀ pc, .returnOf pc ∈ l' → pc.toNat + 2 ≤ 255) :
    Mirrors m₀ (ts ++ [t]) l' t.after where
  sp := hsp
  cells := hcells
  above := fun a ha => (hkeep a (.inl ha)).trans (h.above a ha)
  below := fun a ha hlow => (hkeep a (.inr (hlow t (by simp)))).trans
    (h.below a ha fun u hu => hlow u (List.mem_append_left _ hu))
  calls := hcalls

theorem Mirrors.push {l : List Entry} {e : Entry} (h : Mirrors m₀ ts l t.before)
    (ht : t.Completes) (hop : t.instr.opcode = .push ∨ t.instr.opcode = .call)
    (he : t.instr.pushed t.before.regs = some e.byte)
    (hcall : ∀ pc, e = .returnOf pc → pc.toNat + 2 ≤ 255) :
    Mirrors m₀ (ts ++ [t]) (e :: l) t.after := by
  have hpos := ht.ready.push hop
  have hm : t.after.mem = t.before.mem.write (t.before.regs.value 7 - 1) e.byte := by
    rw [ht.after_eq]
    exact Instruction.memAfter_of_pushed he
  have hs : t.after.regs.value 7 = t.before.regs.value 7 - 1 := by
    rw [ht.after_eq]
    exact Instruction.sp_of_push hop
  have hn : (t.after.regs.value 7).toNat = (t.before.regs.value 7).toNat - 1 := by
    rw [hs, toNat_pred (one_le_toNat_iff.1 hpos)]
  -- the push changes the new top cell only, and that lies below the old stack pointer
  have hkeep (a : UInt8) (ha : a.toNat ≠ (t.after.regs.value 7).toNat) :
      t.after.mem.read a = t.before.mem.read a := by
    rw [hm, Memory.read_write, if_neg]
    rintro rfl
    exact ha (congrArg UInt8.toNat hs.symm)
  have hsp := h.sp
  refine h.next ?_ (fun i hi a ha => ?_) (fun a ha => hkeep a ?_) fun pc hpc => ?_
  · rw [List.length_cons]
    omega
  · cases i with
    | zero =>
      have : a = t.before.regs.value 7 - 1 := by
        rw [← hs]
        exact UInt8.toNat_inj.1 ha
      rw [hm, this, Memory.read_write_self]
      rfl
    | succ i =>
      rw [hkeep a (by omega), List.getElem_cons_succ]
      exact h.cells i (Nat.lt_of_succ_lt_succ hi) a (by omega)
  · rw [UInt8.le_iff_toNat_le, UInt8.lt_iff_toNat_lt] at ha
    omega
  · rcases List.mem_cons.1 hpc with hpc | hpc
    · exact hcall pc hpc.symm
    · exact h.calls pc hpc

theorem Mirrors.pop {l : List Entry} {e : Entry} (h : Mirrors m₀ ts (e :: l) t.before)
    (ht : t.Completes) (hop : t.Pops) (h7 : ¬ t.SetsSp) :
    Mirrors m₀ (ts ++ [t]) l t.after := by
  have hm : t.after.mem = t.before.mem := by
    rw [ht.after_eq]
    exact Instruction.memAfter_of_ne_push fun hp => Instruction.not_pop_of_push hp hop
  have hs : t.after.regs.value 7 = t.before.regs.value 7 + 1 := by
    rw [ht.after_eq]
    exact Instruction.sp_of_pop hop (fun hp ha => h7 ⟨ha, by simp [hp]⟩) ht.ready.registers
  have hn : (t.after.regs.value 7).toNat = (t.before.regs.value 7).toNat + 1 := by
    rw [hs, toNat_succ (toNat_le_iff.1 (ht.ready.pop hop))]
  have hsp := h.sp
  rw [List.length_cons] at hsp
  refine h.next (by omega) (fun i hi a ha => ?_) (fun a _ => by rw [hm]) fun pc hpc => ?_
  · rw [hm]
    exact h.cells (i + 1) (Nat.succ_lt_succ hi) a (by omega)
  · exact h.calls pc (List.mem_cons_of_mem _ hpc)

theorem Mirrors.stay {l : List Entry} (h : Mirrors m₀ ts l t.before) (ht : t.Completes)
    (hpush : ¬ (t.instr.opcode = .push ∨ t.instr.opcode = .call)) (hpop : ¬ t.Pops)
    (h7 : ¬ t.SetsSp) : Mirrors m₀ (ts ++ [t]) l t.after := by
  have hm : t.after.mem = t.before.mem := by
    rw [ht.after_eq]
    exact Instruction.memAfter_of_ne_push hpush
  have hs : t.after.regs.value 7 = t.before.regs.value 7 := by
    rw [ht.after_eq]
    refine Instruction.sp_of_ne hpush hpop (fun ho ha => h7 ⟨ha, ?_⟩) ht.ready.registers
    rcases ho with ho | ho | ho <;> simp [ho]
  refine h.next (by rw [hs]; exact h.sp) (fun i hi a ha => ?_) (fun a _ => by rw [hm]) h.calls
  rw [hm]
  exact h.cells i hi a (by rw [← hs]; exact ha)

/-- One turn keeps the mirror, whatever its instruction. -/
theorem Mirrors.turn {l : List Entry} (h : Mirrors m₀ ts l t.before) (ht : t.Completes)
    (h7 : ¬ t.SetsSp) (hl : t.Pops → l ≠ []) : Mirrors m₀ (ts ++ [t]) (t.shadow l) t.after := by
  cases hop : t.instr.opcode
  case push =>
    have he : t.shadow l = .value (if t.instr.a = 7 then t.before.regs.value 7 - 1
        else t.before.regs.value t.instr.a) :: l := by rw [Turn.shadow, hop]
    rw [he]
    exact h.push ht (.inl hop) (by rw [Instruction.pushed, hop]; rfl) (fun _ e => nomatch e)
  case call =>
    have he : t.shadow l = .returnOf t.before.regs.pc :: l := by rw [Turn.shadow, hop]
    have hroom := ht.ready.room (.inl hop)
    rw [hop] at hroom
    rw [he]
    exact h.push ht (.inr hop) (by rw [Instruction.pushed, hop]; rfl) (by rintro _ ⟨⟩; exact hroom)
  case pop | ret =>
    have hp : t.Pops := by simp [Turn.Pops, hop]
    obtain ⟨e, l', rfl⟩ := List.exists_cons_of_ne_nil (hl hp)
    have he : t.shadow (e :: l') = l' := by rw [Turn.shadow, hop]; rfl
    rw [he]
    exact h.pop ht hp h7
  all_goals
    have he : t.shadow l = l := by rw [Turn.shadow, hop]
    rw [he]
    exact h.stay ht (by simp [hop]) (by simp [Turn.Pops, hop]) h7

theorem shadowStack_append (ts : List Turn) (t : Turn) :
    shadowStack (ts ++ [t]) = t.shadow (shadowStack ts) := by
  simp [shadowStack]

/-- By induction on the execution, memory mirrors the list after each of its turns. -/
theorem Execution.mirrors (h : Execution m₀ ts m) (h7 : ∀ t ∈ ts, ¬ t.SetsSp)
    (hl : ∀ pre t post, ts = pre ++ t :: post → t.Pops → shadowStack pre ≠ []) :
    Mirrors m₀ ts (shadowStack ts) m := by
  induction h with
  | nil => exact .start m₀
  | @snoc us u hus hu ih =>
    have hb := ih (fun t ht => h7 t (List.mem_append_left _ ht)) fun pre t post hts =>
      hl pre t (post ++ [u]) (by rw [hts]; simp)
    rw [shadowStack_append]
    exact hb.turn hu (h7 u (by simp)) (hl us u [] rfl)

theorem stack_mirrors_shadow (h : Execution m₀ ts m) (h7 : ∀ t ∈ ts, ¬ t.SetsSp)
    (hl : ∀ pre t post, ts = pre ++ t :: post → t.Pops → shadowStack pre ≠ []) :
    ∀ pre t post, ts = pre ++ t :: post →
      Mirrors m₀ (pre ++ [t]) (shadowStack (pre ++ [t])) t.after ∧
      (shadowStack (pre ++ [t])).length ≤ (m₀.regs.value 7).toNat ∧
      (t.instr.opcode = .pop → ∃ e l, shadowStack pre = e :: l ∧
        t.after.regs.value t.instr.a = e.byte) ∧
      (t.instr.opcode = .ret → ∃ e l, shadowStack pre = e :: l ∧ t.after.regs.pc = e.byte ∧
        ∀ pc, e = .returnOf pc → t.after.regs.pc.toNat = pc.toNat + 2) := by
  intro pre t post hts
  obtain ⟨hpre, ht⟩ := h.at_turn hts
  have h7t : ¬ t.SetsSp := h7 t (by simp [hts])
  have hb : Mirrors m₀ pre (shadowStack pre) t.before := by
    refine hpre.mirrors (fun u hu => h7 u (by simp [hts, hu])) fun pre' u post' hu => ?_
    exact hl pre' u (post' ++ t :: post) (by simp [hts, hu])
  have ha := hb.turn ht h7t (hl pre t post hts)
  rw [← shadowStack_append] at ha
  have hlen := ha.sp
  refine ⟨ha, by omega, fun hop => ?_, fun hop => ?_⟩
  · obtain ⟨e, l, he⟩ := List.exists_cons_of_ne_nil (hl pre t post hts (.inl hop))
    have hreg : t.instr.a.toNat < 8 :=
      ht.ready.registers _ (by simp [Instruction.registerOperands, hop])
    rw [he] at hb
    refine ⟨e, l, he, ?_⟩
    rw [ht.after_eq, ← hb.head]
    exact Instruction.value_of_pop hop hreg
  · obtain ⟨e, l, he⟩ := List.exists_cons_of_ne_nil (hl pre t post hts (.inr hop))
    have hpc : t.after.regs.pc = e.byte := by
      rw [he] at hb
      rw [ht.after_eq, ← hb.head, Machine.completed, Instruction.pcAfter, hop]
    refine ⟨e, l, he, hpc, ?_⟩
    rintro pc rfl
    have := hb.calls pc (by simp [he])
    rw [hpc]
    exact toNat_add_ofNat (n := 2) (by omega)

/-- A machine about to call a routine that pushes the stack pointer, pops it and returns. -/
def callingMachine : Machine :=
  { Machine.powerOn with
    regs := Registers.powerOn.put 1 4
    mem := (Memory.blank.store 0 [0x50, 1]).store 4 [0x45, 7, 0x46, 0, 0x11] }

def callTurn : Turn := callingMachine.turn ⟨.call, 1, 0⟩

def pushTurn : Turn := callTurn.after.turn ⟨.push, 7, 0x46⟩

def popTurn : Turn := pushTurn.after.turn ⟨.pop, 0, 0x11⟩

def retTurn : Turn := popTurn.after.turn ⟨.ret, 0, 0⟩

theorem execution_calling :
    Execution callingMachine [callTurn, pushTurn, popTurn, retTurn] retTurn.after := by
  have h₁ : Execution callingMachine [callTurn] callTurn.after :=
    .snoc (t := callTurn) .nil ⟨fun _ => none, rfl, rfl⟩
  have h₂ : Execution callingMachine [callTurn, pushTurn] pushTurn.after :=
    .snoc (t := pushTurn) h₁ ⟨fun _ => none, rfl, rfl⟩
  have h₃ : Execution callingMachine [callTurn, pushTurn, popTurn] popTurn.after :=
    .snoc (t := popTurn) h₂ ⟨fun _ => none, rfl, rfl⟩
  exact .snoc (t := retTurn) h₃ ⟨fun _ => none, rfl, rfl⟩

theorem calling_mirrors_shadow :
    Execution callingMachine [callTurn, pushTurn, popTurn, retTurn] retTurn.after ∧
      (∀ t ∈ [callTurn, pushTurn, popTurn, retTurn], ¬ t.SetsSp) ∧
      shadowStack [callTurn, pushTurn, popTurn] = [.returnOf 0] ∧
      retTurn.after.regs.pc = 2 := by
  have h7 : ∀ t ∈ [callTurn, pushTurn, popTurn, retTurn], ¬ t.SetsSp := by decide
  have hl : ∀ pre t post, [callTurn, pushTurn, popTurn, retTurn] = pre ++ t :: post → t.Pops →
      shadowStack pre ≠ [] := by
    intro pre t post hts hp
    rcases pre with _ | ⟨a, _ | ⟨b, _ | ⟨c, _ | ⟨d, pre⟩⟩⟩⟩ <;>
      simp only [List.cons_append, List.nil_append, List.cons.injEq] at hts
    · obtain ⟨rfl, -⟩ := hts
      exact absurd hp (by decide)
    · obtain ⟨rfl, rfl, -⟩ := hts
      exact absurd hp (by decide)
    · obtain ⟨rfl, rfl, -⟩ := hts
      decide
    · obtain ⟨rfl, rfl, rfl, -⟩ := hts
      decide
    · simp at hts
  obtain ⟨-, -, -, hret⟩ := stack_mirrors_shadow execution_calling h7 hl
    [callTurn, pushTurn, popTurn] retTurn [] rfl
  obtain ⟨e, l, he, hpc, -⟩ := hret rfl
  cases he
  exact ⟨execution_calling, h7, rfl, hpc⟩

end LS8
