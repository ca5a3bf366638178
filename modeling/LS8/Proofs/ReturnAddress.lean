import LS8.Proofs.Execution
/-! Where a call keeps its return address. Only pushes and calls write memory, and they write below
the stack pointer that they find, so a cell stays as it is for as long as the stack pointer is at or
below it before each turn (`Execution.read_of_le`). The cell that a call has written is such a cell,
whatever the routine does with the stack pointer meanwhile, and a return that finds the stack
pointer at it goes on behind the call. -/

namespace LS8

variable {m n : Machine} {ts : List Turn} {t call : Turn} {a : UInt8}

/-- A turn writes below the stack pointer only. -/
theorem Turn.Completes.read_of_le (ht : t.Completes) (ha : t.before.regs.value 7 ≤ a) :
    t.after.mem.read a = t.before.mem.read a := by
  rw [ht.after_eq, Machine.completed]
  by_cases hop : t.instr.opcode = .push ∨ t.instr.opcode = .call
  · have hpos := ht.ready.push hop
    have hslot := toNat_pred (one_le_toNat_iff.1 hpos)
    have hne : t.before.regs.value 7 - 1 ≠ a := by
      rintro rfl
      rw [UInt8.le_iff_toNat_le] at ha
      omega
    cases hv : t.instr.pushed t.before.regs with
    | none => rw [Instruction.memAfter, hv]
    | some v => rw [Instruction.memAfter_of_pushed hv, Memory.read_write, if_neg hne]
  · rw [Instruction.memAfter_of_ne_push hop]

/-- By induction on the turns, none of which writes the cell. -/
theorem Execution.read_of_le (h : Execution m ts n) (hsp : ∀ t ∈ ts, t.before.regs.value 7 ≤ a) :
    n.mem.read a = m.mem.read a := by
  induction h with
  | nil => rfl
  | @snoc us u hus hu ih =>
    rw [hu.read_of_le (hsp u (by simp))]
    exact ih fun t ht => hsp t (List.mem_append_left _ ht)

theorem Turn.Completes.sp_pos_of_call (hc : call.Completes) (hop : call.instr.opcode = .call) :
    (call.before.regs.value 7 - 1).toNat + 1 = (call.before.regs.value 7).toNat := by
  have hpos := hc.ready.push (.inr hop)
  rw [toNat_pred (one_le_toNat_iff.1 hpos)]
  omega

/-- A call leaves its return address in the cell below the stack pointer. -/
theorem Turn.Completes.read_of_call (hc : call.Completes) (hop : call.instr.opcode = .call) :
    call.after.mem.read (call.before.regs.value 7 - 1) = call.before.regs.pc + 2 := by
  have hpushed : call.instr.pushed call.before.regs = some (call.before.regs.pc + 2) := by
    rw [Instruction.pushed, hop]
  rw [hc.after_eq, Machine.completed, Instruction.memAfter_of_pushed hpushed,
    Memory.read_write_self]

theorem Turn.Completes.of_ret (ht : t.Completes) (hop : t.instr.opcode = .ret) :
    t.after.regs.pc = t.before.mem.read (t.before.regs.value 7) ∧
      t.after.regs.value 7 = t.before.regs.value 7 + 1 := by
  rw [ht.after_eq]
  constructor
  · rw [Machine.completed, Instruction.pcAfter, hop]
  · exact Instruction.sp_of_pop (.inr hop) (by simp [hop]) ht.ready.registers

/-- The return address of a call is safe for as long as the stack pointer stays at or below its
cell, and a return from there goes on behind the call. -/
theorem return_address_safe (hc : call.Completes) (hop : call.instr.opcode = .call)
    (h : Execution call.after ts n)
    (hsp : ∀ t ∈ ts, t.before.regs.value 7 ≤ call.before.regs.value 7 - 1) :
    let slot := call.before.regs.value 7 - 1
    let back := call.before.regs.pc + 2
    slot.toNat + 1 = (call.before.regs.value 7).toNat ∧
    back.toNat = call.before.regs.pc.toNat + 2 ∧
    call.after.mem.read slot = back ∧ n.mem.read slot = back ∧
    (∀ t ∈ ts, t.before.mem.read slot = back ∧ t.after.mem.read slot = back) ∧
    ∀ t ∈ ts, t.instr.opcode = .ret → t.before.regs.value 7 = slot →
      t.after.regs.pc = back ∧ t.after.regs.value 7 = call.before.regs.value 7 := by
  intro slot back
  have hroom : call.before.regs.pc.toNat + 2 ≤ 255 := by
    simpa [hop, Opcode.size] using hc.ready.room (.inl hop)
  have hwritten : call.after.mem.read slot = back := hc.read_of_call hop
  have hbefore : ∀ t ∈ ts, t.Completes ∧ t.before.mem.read slot = back := by
    intro t ht
    obtain ⟨pre, post, hts⟩ := List.append_of_mem ht
    obtain ⟨hpre, hcomp⟩ := h.at_turn hts
    refine ⟨hcomp, ?_⟩
    rw [← hwritten]
    exact hpre.read_of_le fun u hu => hsp u (by simp [hts, hu])
  refine ⟨hc.sp_pos_of_call hop, toNat_add_ofNat (n := 2) (by omega), hwritten,
    (h.read_of_le hsp).trans hwritten, fun t ht => ?_, fun t ht hret hat => ?_⟩
  · obtain ⟨hcomp, hread⟩ := hbefore t ht
    exact ⟨hread, (hcomp.read_of_le (hsp t ht)).trans hread⟩
  · obtain ⟨hcomp, hread⟩ := hbefore t ht
    obtain ⟨hpc, hmoved⟩ := hcomp.of_ret hret
    rw [hpc, hmoved, hat]
    exact ⟨hread, UInt8.sub_add_cancel _ _⟩

/-- A machine about to call a routine that pushes elsewhere: it moves the stack pointer away and
back again before it returns. -/
def strayingMachine : Machine :=
  { Machine.powerOn with
    regs := Registers.powerOn.put 1 4
    mem := (Memory.blank.store 0 [0x50, 1]).store 4
      [0x82, 7, 0x80, 0x45, 0, 0x82, 7, 0xF3, 0x11] }

def strayCall : Turn := strayingMachine.turn ⟨.call, 1, 0⟩

def strayAway : Turn := strayCall.after.turn ⟨.ldi, 7, 0x80⟩

def strayPush : Turn := strayAway.after.turn ⟨.push, 0, 0x82⟩

def strayBack : Turn := strayPush.after.turn ⟨.ldi, 7, 0xF3⟩

def strayRet : Turn := strayBack.after.turn ⟨.ret, 0, 0⟩

theorem completes_strayCall : strayCall.Completes :=
  ⟨fun _ => none, rfl, rfl⟩

theorem execution_straying :
    Execution strayCall.after [strayAway, strayPush, strayBack, strayRet] strayRet.after := by
  have h₁ : Execution strayCall.after [strayAway] strayAway.after :=
    .snoc (t := strayAway) .nil ⟨fun _ => none, rfl, rfl⟩
  have h₂ : Execution strayCall.after [strayAway, strayPush] strayPush.after :=
    .snoc (t := strayPush) h₁ ⟨fun _ => none, rfl, rfl⟩
  have h₃ : Execution strayCall.after [strayAway, strayPush, strayBack] strayBack.after :=
    .snoc (t := strayBack) h₂ ⟨fun _ => none, rfl, rfl⟩
  exact .snoc (t := strayRet) h₃ ⟨fun _ => none, rfl, rfl⟩

theorem straying_returns :
    strayCall.Completes ∧
      Execution strayCall.after [strayAway, strayPush, strayBack, strayRet] strayRet.after ∧
      (∀ t ∈ [strayAway, strayPush, strayBack, strayRet],
        t.before.regs.value 7 ≤ strayCall.before.regs.value 7 - 1) ∧
      strayRet.before.mem.read 0xF3 = 2 ∧ strayRet.after.regs.pc = 2 ∧
      strayRet.after.regs.value 7 = 0xF4 := by
  have hsp : ∀ t ∈ [strayAway, strayPush, strayBack, strayRet],
      t.before.regs.value 7 ≤ strayCall.before.regs.value 7 - 1 := by decide
  obtain ⟨-, -, -, -, hkept, hret⟩ :=
    return_address_safe completes_strayCall rfl execution_straying hsp
  have hlast : strayRet ∈ [strayAway, strayPush, strayBack, strayRet] := by simp
  obtain ⟨hpc, hmoved⟩ := hret strayRet hlast rfl rfl
  exact ⟨completes_strayCall, execution_straying, hsp, (hkept strayRet hlast).1, hpc, hmoved⟩

end LS8
