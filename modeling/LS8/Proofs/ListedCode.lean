import LS8.Proofs.Attempts
import LS8.Proofs.Encoding
/-! What a listing says of an image holds of every run over it, as long as nothing is written into
the image. A step writes at most one cell, and only where it carries out a push or a call
(`read_step`), so the image stays as it was (`Holds.attempt`). Where memory holds the image, the
machine and the listing read the same bytes (`Holds.byteAt_drop`) and so find the same instruction,
up to operand bytes that it does not use, or the same byte of data (`Holds.itemAt_eq_data_iff`). -/

namespace LS8

namespace Listing

variable {bytes : List UInt8}

theorem byteAt_drop (n k : Nat) : byteAt (bytes.drop n) k = byteAt bytes (n + k) := by
  rw [byteAt, byteAt, List.getElem?_drop]

theorem Item.ofBytes_eq_data_iff {b : UInt8} :
    ofBytes bytes = data b ↔ Opcode.ofByte? (byteAt bytes 0) = none ∧ b = byteAt bytes 0 := by
  cases hop : Opcode.ofByte? (byteAt bytes 0) with
  | some op => simp [ofBytes_eq_instruction (Opcode.byte_of_ofByte? hop)]
  | none =>
    have hdecode := (Instruction.decode_eq_error_iff (a := byteAt bytes 1) (b := byteAt bytes 2)).2
      ⟨hop, rfl⟩
    unfold byteAt at hdecode ⊢
    simp [ofBytes, hdecode, eq_comm]

theorem Item.text_eq_data_iff {x : Item} {b : UInt8} :
    x.text = "DB 0x" ++ Numeral.hex b ↔ x = data b := by
  cases x with
  | instruction i => exact ⟨fun h => absurd h (text_ne_data i b), nofun⟩
  | data c =>
    constructor
    · intro h
      rw [Numeral.hex_injective ((String.append_right_inj _).1 h)]
    · rintro ⟨⟩
      rfl

end Listing

namespace Machine

variable {m : Machine} {refusal : UInt8 → Option String} {a : UInt8}

/-- A step carries out a push or a call, and so writes to the cell below the stack pointer. The step
may fail all the same, where memory ends after a push. -/
def PushesTo (m : Machine) (refusal : UInt8 → Option String) (a : UInt8) : Prop :=
  m.state = .running ∧ ∃ i e, m.fetch = .ok i ∧ (i.opcode = .push ∨ i.opcode = .call) ∧
    i.execute refusal m.regs m.mem = .ok e ∧ a = m.regs.value 7 - 1

theorem read_memAfter {i : Instruction} (hrun : m.state = .running) (hi : m.fetch = .ok i)
    (ho : i.obstacle m.regs refusal = none) (ha : ¬ m.PushesTo refusal a) :
    (i.memAfter m.regs m.mem).read a = m.mem.read a := by
  by_cases hop : i.opcode = .push ∨ i.opcode = .call
  · have hne : m.regs.value 7 - 1 ≠ a := by
      rintro rfl
      exact ha ⟨hrun, i, _, hi, hop, by rw [Instruction.execute_eq, ho], rfl⟩
    cases hv : i.pushed m.regs with
    | none => rw [Instruction.memAfter, hv]
    | some v => rw [Instruction.memAfter_of_pushed hv, Memory.read_write, if_neg hne]
  · rw [Instruction.memAfter_of_ne_push hop]

/-- A step leaves every cell alone that it does not push to. -/
theorem read_step (ha : ¬ m.PushesTo refusal a) :
    (m.step refusal).machine.mem.read a = m.mem.read a := by
  rcases step_cases refusal m with ⟨-, hs⟩ | ⟨-, -, hs⟩ |
    ⟨hrun, i, hi, ⟨f, -, hs⟩ | ⟨ho, f, -, hs⟩ | ⟨ho, -, hs⟩⟩
  · rw [hs]
  · rw [hs]
  · rw [hs]
  · rw [hs]
    exact read_memAfter hrun hi ho ha
  · rw [hs]
    exact read_memAfter hrun hi ho ha

/-- Memory holds the bytes from address zero on. -/
def Holds (m : Machine) (bytes : List UInt8) : Prop :=
  ∀ a : UInt8, a.toNat < bytes.length → bytes[a.toNat]? = some (m.mem.read a)

variable {bytes : List UInt8}

theorem holds_store {mem : Memory} (hsize : bytes.length ≤ 256) (hm : m.mem = mem.store 0 bytes) :
    m.Holds bytes := by
  intro a ha
  have hzero : (0 : UInt8).toNat + bytes.length ≤ Memory.size := by
    rw [UInt8.toNat_zero, Nat.zero_add]
    exact hsize
  rw [hm, Memory.read_store hzero, if_pos UInt8.zero_le, UInt8.toNat_zero, Nat.sub_zero,
    List.getElem?_eq_getElem ha]
  rfl

theorem Holds.step (h : m.Holds bytes)
    (hkeep : ∀ a, m.PushesTo refusal a → bytes.length ≤ a.toNat) :
    (m.step refusal).machine.Holds bytes := by
  intro a ha
  rw [read_step fun hp => Nat.not_le.2 ha (hkeep a hp)]
  exact h a ha

/-- By induction on the steps, the image stays in memory. -/
theorem Holds.attempt (h : m.Holds bytes) (refusals : List (UInt8 → Option String))
    (hkeep : ∀ pre refusal post a, refusals = pre ++ refusal :: post →
      (m.attempt pre).PushesTo refusal a → bytes.length ≤ a.toNat) :
    (m.attempt refusals).Holds bytes := by
  induction refusals using List.reverseRecOn with
  | nil => exact h
  | append_singleton refusals refusal ih =>
    rw [attempt_concat]
    -- a step before the last is a step of the whole, with the last one behind it
    refine Holds.step (ih fun pre r post a hr => ?_) fun a => ?_
    · exact hkeep pre r (post ++ [refusal]) a (by rw [hr]; simp)
    · exact hkeep refusals refusal [] a rfl

theorem Holds.ahead (h : m.Holds bytes) (hsize : bytes.length ≤ 256) {k : Nat}
    (hk : m.regs.pc.toNat + k < bytes.length) :
    m.ahead k = Listing.byteAt (bytes.drop m.regs.pc.toNat) k := by
  have hcell : (m.regs.pc + UInt8.ofNat k).toNat = m.regs.pc.toNat + k :=
    toNat_add_ofNat (by omega)
  have hbyte := h (m.regs.pc + UInt8.ofNat k) (by rw [hcell]; exact hk)
  rw [Listing.byteAt_drop, Listing.byteAt, ← hcell, hbyte]
  rfl

/-- The machine and the listing find the same operation, and the same instruction if all of it lies
within the image. -/
theorem Holds.itemAt_of_fetch {i : Instruction} (h : m.Holds bytes) (hsize : bytes.length ≤ 256)
    (hi : m.fetch = .ok i) (hwidth : m.regs.pc.toNat + i.opcode.width ≤ bytes.length) :
    ∃ j, Listing.itemAt bytes m.regs.pc.toNat = .instruction j ∧ j.opcode = i.opcode ∧
      j.encode = i.encode := by
  have hpos := i.opcode.width_pos
  have hop : i.opcode.byte = Listing.byteAt (bytes.drop m.regs.pc.toNat) 0 := by
    rw [← h.ahead hsize (by omega), ahead_zero]
    exact (fetch_eq_ok_iff.1 hi).1
  -- past the end of the image the two read different bytes, so only the encodings agree
  refine ⟨_, Listing.Item.ofBytes_eq_instruction hop, rfl, ?_⟩
  rw [Instruction.encode_read _ hop, encode_of_fetch hi]
  refine List.map_congr_left fun k hk => (h.ahead hsize ?_).symm
  have := List.mem_range.1 hk
  omega

theorem Holds.itemAt_eq_data_iff {b : UInt8} (h : m.Holds bytes) (hsize : bytes.length ≤ 256)
    (hpc : m.regs.pc.toNat < bytes.length) :
    Listing.itemAt bytes m.regs.pc.toNat = .data b ↔
      Opcode.ofByte? (m.mem.read m.regs.pc) = none ∧ b = m.mem.read m.regs.pc := by
  rw [Listing.itemAt, Listing.Item.ofBytes_eq_data_iff, ← h.ahead hsize hpc, ahead_zero]

end Machine

/-- A listing tells the truth about every run that does not push into the image: it shows what is
fetched, and as data exactly the bytes at which a fetch fails. -/
theorem listing_true_of_runs {bytes : List UInt8} {m : Machine} (hsize : bytes.length ≤ 256)
    (hmem : m.Holds bytes) (refusals : List (UInt8 → Option String))
    (hkeep : ∀ pre refusal post a, refusals = pre ++ refusal :: post →
      (m.attempt pre).PushesTo refusal a → bytes.length ≤ a.toNat) :
    let m' := m.attempt refusals
    let item := Listing.itemAt bytes m'.regs.pc.toNat
    (∀ i, m'.fetch = .ok i → m'.regs.pc.toNat + i.opcode.width ≤ bytes.length →
      item.text = i.text ∧ item.width = i.opcode.width) ∧
    (m'.regs.pc.toNat < bytes.length → ∀ b pc,
      m'.fetch = .error (.unknownOpcode b pc) ↔
        pc = m'.regs.pc ∧ item.text = "DB 0x" ++ Numeral.hex b) := by
  intro m' item
  have hholds : m'.Holds bytes := hmem.attempt refusals hkeep
  constructor
  · intro i hi hwidth
    obtain ⟨j, hitem, hop, hencode⟩ := hholds.itemAt_of_fetch hsize hi hwidth
    simp only [item, hitem]
    exact ⟨Instruction.text_eq_iff_encode_eq.2 hencode, congrArg Opcode.width hop⟩
  · intro hpc b pc
    rw [Machine.fetch_eq_error_iff, Listing.Item.text_eq_data_iff,
      hholds.itemAt_eq_data_iff hsize hpc]

/-- A load and a push, with a byte of data behind them. -/
def pushedThenData : List UInt8 :=
  [0x82, 0, 5, 0x45, 0, 0xFF]

def Machine.pushing : Machine :=
  { powerOn with mem := Memory.blank.store 0 pushedThenData }

theorem listing_true_of_pushing :
    Machine.pushing.Holds pushedThenData ∧
    let m := Machine.pushing.attempt [fun _ => none, fun _ => none]
    m.mem.read 0xF3 = 5 ∧ m.regs.pc = 5 ∧ m.fetch = .error (.unknownOpcode 0xFF 5) ∧
      (Listing.itemAt pushedThenData 5).text = "DB 0xff" := by
  have hmem : Machine.pushing.Holds pushedThenData := Machine.holds_store (by decide) rfl
  have hkeep : ∀ pre refusal post a, [fun _ => none, fun _ => none] = pre ++ refusal :: post →
      (Machine.pushing.attempt pre).PushesTo refusal a → pushedThenData.length ≤ a.toNat := by
    rintro pre refusal post a hr ⟨-, -, -, -, -, -, rfl⟩
    rcases pre with _ | ⟨r, _ | ⟨r', pre⟩⟩ <;>
      simp only [List.cons_append, List.nil_append, List.cons.injEq] at hr
    · decide
    · obtain ⟨rfl, -⟩ := hr
      decide
    · simp at hr
  have htrue := (listing_true_of_runs (by decide) hmem [fun _ => none, fun _ => none] hkeep).2
    (by decide) 0xFF 5
  have hfetch : (Machine.pushing.attempt [fun _ => none, fun _ => none]).fetch =
      .error (.unknownOpcode 0xFF 5) := rfl
  exact ⟨hmem, rfl, rfl, hfetch, (htrue.1 hfetch).2⟩

end LS8
