import LS8.Proofs.ListingRows
import LS8.Proofs.StepOutcome
import Mathlib.Data.List.TakeDrop
/-! Programs as byte sequences: instructions encoded one after the other. Two readers find them
again, each by its own way to the bytes: a listing, which reads a sequence from its start to its
end, and the machine, which reads memory at the program counter. Both rest on `encode_read`: the
bytes from an opcode byte on, as many as the operation is wide, are the encoding of what they decode
to. -/

namespace LS8

theorem Instruction.encode_read {op : Opcode} (byte : Nat → UInt8) (h : op.byte = byte 0) :
    encode ⟨op, byte 1, byte 2⟩ = (List.range op.width).map byte := by
  have hle := op.operandCount_le
  rw [encode, operands, Opcode.width, h]
  dsimp only
  generalize op.operandCount = n at hle
  rcases n with _ | _ | _ | n
  · rfl
  · rfl
  · rfl
  · omega

namespace Listing

/-- The byte at an index; past the end the bytes are zero. -/
def byteAt (bytes : List UInt8) (k : Nat) : UInt8 :=
  bytes[k]?.getD 0

theorem map_range_byteAt (bytes : List UInt8) (n : Nat) :
    (List.range n).map (byteAt bytes) = bytes.takeD n 0 := by
  induction n generalizing bytes with
  | zero => rfl
  | succ n ih =>
    rw [List.range_succ_eq_map, List.map_cons, List.map_map, List.takeD_succ, ← ih bytes.tail]
    cases bytes <;> rfl

theorem Item.ofBytes_eq_instruction {bytes : List UInt8} {op : Opcode}
    (h : op.byte = byteAt bytes 0) :
    ofBytes bytes = instruction ⟨op, byteAt bytes 1, byteAt bytes 2⟩ := by
  have hdecode := (Instruction.decode_eq_ok_iff (i := ⟨op, byteAt bytes 1, byteAt bytes 2⟩)).2
    ⟨h, rfl, rfl⟩
  unfold byteAt at hdecode ⊢
  simp only [ofBytes, hdecode]

/-- An item stands for the bytes it was read from, and for zeros where these end too early. -/
theorem Item.bytes_ofBytes (bytes : List UInt8) :
    (ofBytes bytes).bytes = bytes.takeD (ofBytes bytes).width 0 := by
  unfold ofBytes
  dsimp only
  split
  next i h =>
    obtain ⟨hop, ha, hb⟩ := Instruction.decode_eq_ok_iff.1 h
    have hread := Instruction.encode_read (byteAt bytes) hop
    rw [map_range_byteAt] at hread
    simp only [byteAt, ← ha, ← hb] at hread
    exact hread
  next e h =>
    obtain ⟨-, rfl⟩ := Instruction.decode_eq_error_iff.1 h
    exact map_range_byteAt bytes 1

/-- Whatever follows an encoded instruction, the instruction is read again, up to the operand bytes
that it does not use. -/
theorem Item.ofBytes_encode_append (i : Instruction) (rest : List UInt8) :
    ∃ j : Instruction, ofBytes (i.encode ++ rest) = instruction j ∧ j.opcode = i.opcode ∧
      j.encode = i.encode := by
  have hitem : ofBytes (i.encode ++ rest) =
      instruction ⟨i.opcode, byteAt (i.encode ++ rest) 1, byteAt (i.encode ++ rest) 2⟩ :=
    Item.ofBytes_eq_instruction rfl
  have hbytes := Item.bytes_ofBytes (i.encode ++ rest)
  rw [hitem] at hbytes
  refine ⟨_, hitem, rfl, hbytes.trans ?_⟩
  exact List.takeD_left' i.length_encode

theorem linesFrom_of_ne_nil {bytes : List UInt8} (h : bytes ≠ []) (addr : Nat) :
    linesFrom addr bytes =
      ⟨addr, .ofBytes bytes, bytes.take (Item.ofBytes bytes).width⟩ ::
        linesFrom (addr + (Item.ofBytes bytes).width) (bytes.drop (Item.ofBytes bytes).width) := by
  cases bytes with
  | nil => exact absurd rfl h
  | cons b rest => rw [linesFrom]

end Listing

namespace Program

def bytes (is : List Instruction) : List UInt8 :=
  is.flatMap Instruction.encode

def offset (is : List Instruction) (k : Nat) : Nat :=
  (bytes (is.take k)).length

def rows (is : List Instruction) : List Listing.Row :=
  is.mapIdx fun k i => ⟨offset is k, i.text, i.encode⟩

/-- By induction on the instructions, with the listing begun at any address. -/
theorem map_row_linesFrom (is : List Instruction) (addr : Nat) :
    (Listing.linesFrom addr (bytes is)).map Listing.Line.row =
      is.mapIdx fun k i => ⟨addr + offset is k, i.text, i.encode⟩ := by
  induction is generalizing addr with
  | nil =>
    rw [bytes, List.flatMap_nil, Listing.linesFrom]
    rfl
  | cons i is ih =>
    have hbytes : bytes (i :: is) = i.encode ++ bytes is := List.flatMap_cons
    obtain ⟨j, hitem, hop, hencode⟩ := Listing.Item.ofBytes_encode_append i (bytes is)
    have hwidth : (Listing.Item.instruction j).width = i.encode.length := by
      rw [i.length_encode, ← hop]
      rfl
    have htext : (Listing.Item.instruction j).text = i.text :=
      Instruction.text_eq_iff_encode_eq.2 hencode
    have hoffset (k : Nat) : offset (i :: is) (k + 1) = i.encode.length + offset is k :=
      List.length_append
    rw [hbytes, Listing.linesFrom_of_ne_nil (by simp [Instruction.encode]), hitem, hwidth,
      List.drop_left, List.take_left, List.map_cons, ih, List.mapIdx_cons, Listing.Line.row, htext]
    simp only [hoffset, Nat.add_assoc]
    rfl

theorem rows_bytes (is : List Instruction) : Listing.rows (bytes is) = rows is := by
  have hrows := map_row_linesFrom is 0
  simp only [Nat.zero_add] at hrows
  exact hrows

theorem bytes_split {is : List Instruction} {k : Nat} {i : Instruction} (hi : is[k]? = some i) :
    bytes is = bytes (is.take k) ++ (i.encode ++ bytes (is.drop (k + 1))) := by
  obtain ⟨hk, rfl⟩ := List.getElem?_eq_some_iff.1 hi
  have hdrop : bytes (is.drop k) = is[k].encode ++ bytes (is.drop (k + 1)) := by
    rw [List.drop_eq_getElem_cons hk]
    exact List.flatMap_cons
  rw [← hdrop, bytes, bytes, bytes, ← List.flatMap_append, List.take_append_drop]

theorem offset_add_le {is : List Instruction} {k : Nat} {i : Instruction} (hi : is[k]? = some i) :
    offset is k + i.encode.length ≤ (bytes is).length := by
  rw [bytes_split hi, List.length_append, List.length_append, offset]
  omega

/-- The bytes from the beginning of an instruction on are its encoding. -/
theorem getElem?_bytes {is : List Instruction} {k : Nat} {i : Instruction} (hi : is[k]? = some i)
    {t : Nat} (ht : t < i.encode.length) : (bytes is)[offset is k + t]? = i.encode[t]? := by
  rw [bytes_split hi, offset, List.getElem?_append_right (Nat.le_add_right _ t),
    Nat.add_sub_cancel_left, List.getElem?_append_left ht]

end Program

namespace Machine

variable {m : Machine} {i : Instruction}

/-- The cells from the program counter on, around the end of memory. -/
def ahead (m : Machine) (k : Nat) : UInt8 :=
  m.mem.read (m.regs.pc + UInt8.ofNat k)

theorem ahead_zero (m : Machine) : m.ahead 0 = m.mem.read m.regs.pc :=
  congrArg m.mem.read (UInt8.add_zero m.regs.pc)

theorem encode_of_fetch (h : m.fetch = .ok i) :
    i.encode = (List.range i.opcode.width).map m.ahead := by
  obtain ⟨hop, hi⟩ := fetch_eq_ok_iff.1 h
  rw [← ahead_zero] at hop
  rw [hi]
  exact Instruction.encode_read m.ahead hop

theorem fetch_of_encode (h : i.encode = (List.range i.opcode.width).map m.ahead) :
    ∃ j, m.fetch = .ok j ∧ j.encode = i.encode := by
  have hop : i.opcode.byte = m.ahead 0 := by
    have hhead := congrArg List.head? h
    rw [Opcode.width, Nat.add_comm, List.range_succ_eq_map] at hhead
    exact Option.some.inj hhead
  have hfetch : m.fetch = .ok ⟨i.opcode, m.ahead 1, m.ahead 2⟩ :=
    fetch_eq_ok_iff.2 ⟨hop.trans (ahead_zero m), rfl⟩
  exact ⟨_, hfetch, (encode_of_fetch hfetch).trans h.symm⟩

/-- Where a program was stored, the cells from an instruction's beginning on hold its encoding. -/
theorem ahead_store {mem : Memory} {s : UInt8} {is : List Instruction} {k : Nat}
    (hsize : s.toNat + (Program.bytes is).length ≤ Memory.size) (hi : is[k]? = some i)
    (hmem : m.mem = mem.store s (Program.bytes is))
    (hpc : m.regs.pc.toNat = s.toNat + Program.offset is k) :
    i.encode = (List.range i.opcode.width).map m.ahead := by
  have hend := Program.offset_add_le hi
  have hlength := i.length_encode
  simp only [Memory.size] at hsize
  apply List.ext_getElem
  · rw [List.length_map, List.length_range, hlength]
  · intro t ht _
    have hcell : (m.regs.pc + UInt8.ofNat t).toNat = s.toNat + (Program.offset is k + t) := by
      rw [toNat_add_ofNat (by omega), hpc, Nat.add_assoc]
    have hbelow : s ≤ m.regs.pc + UInt8.ofNat t := by
      rw [UInt8.le_iff_toNat_le, hcell]
      exact Nat.le_add_right _ _
    rw [List.getElem_map, List.getElem_range, ahead, hmem, Memory.read_store hsize, if_pos hbelow,
      hcell, Nat.add_sub_cancel_left, Program.getElem?_bytes hi ht, List.getElem?_eq_getElem ht,
      Option.getD_some]

end Machine

/-- The two readers of programs find every instruction again: the listing has one row for each, all
of whose columns are read back from its text, and the machine fetches each where it begins. What the
machine fetches is encoded as it stands in memory. -/
theorem Program.decoding_undoes_encoding (is : List Instruction) :
    Listing.text (bytes is) =
      Listing.header ++ String.join ((rows is).map Listing.Row.print) ∧
    Listing.readRows? (Listing.text (bytes is)) = some (rows is) ∧
    (∀ (mem : Memory) (s : UInt8), s.toNat + (bytes is).length ≤ 256 →
      ∃ loaded, mem.load s (bytes is) = .ok loaded ∧
        ∀ (k : Nat) (i : Instruction), is[k]? = some i → s.toNat + offset is k < 256 ∧
          ∀ m : Machine, m.mem = loaded → m.regs.pc.toNat = s.toNat + offset is k →
            ∃ j, m.fetch = .ok j ∧ j.opcode = i.opcode ∧ j.operands = i.operands) ∧
    ∀ (m : Machine) (i : Instruction), m.fetch = .ok i →
      i.encode = (List.range i.opcode.width).map fun k =>
        m.mem.read (m.regs.pc + UInt8.ofNat k) := by
  refine ⟨?_, ?_, ?_, fun m i => Machine.encode_of_fetch⟩
  · rw [Listing.text_eq, rows_bytes]
  · rw [Listing.readRows?_text, rows_bytes]
  · intro mem s hsize
    refine ⟨mem.store s (bytes is), if_pos hsize, ?_⟩
    intro k i hi
    have hend := offset_add_le hi
    have hpos := i.opcode.width_pos
    rw [i.length_encode] at hend
    refine ⟨by omega, ?_⟩
    intro m hmem hpc
    obtain ⟨j, hj, hencode⟩ := Machine.fetch_of_encode (Machine.ahead_store hsize hi hmem hpc)
    exact ⟨j, hj, Instruction.encode_eq_iff.1 hencode⟩

/-- A load, a line and a halt; the line and the halt have operand bytes that they do not use. -/
def Program.printing : List Instruction :=
  [⟨.ldi, 0, 8⟩, ⟨.prn, 0, 7⟩, ⟨.hlt, 9, 9⟩]

/-- The program is stored where it ends with the last cell, so that the bytes behind the halt are
those around the end of memory. -/
theorem Program.printing_is_read_back :
    Listing.text [0x82, 0, 8, 0x47, 0, 0x01] = Listing.header ++
      "00: LDI R0,8     ; 10000010 00000000 00001000\n" ++
      "03: PRN R0       ; 01000111 00000000\n" ++
      "05: HLT          ; 00000001\n" ∧
    Listing.readRows? (Listing.text [0x82, 0, 8, 0x47, 0, 0x01]) =
      some [⟨0, "LDI R0,8", [0x82, 0, 8]⟩, ⟨3, "PRN R0", [0x47, 0]⟩, ⟨5, "HLT", [0x01]⟩] ∧
    ∃ loaded, Memory.blank.load 0xFA [0x82, 0, 8, 0x47, 0, 0x01] = .ok loaded ∧
      ∀ m : Machine, m.mem = loaded → m.regs.pc = 0xFF →
        ∃ j, m.fetch = .ok j ∧ j.opcode = .hlt ∧ j.operands = [] ∧ m.mem.read 0xFF = 0x01 := by
  obtain ⟨htext, hrows, hloaded, hmemory⟩ := decoding_undoes_encoding printing
  have hbytes : bytes printing = [0x82, 0, 8, 0x47, 0, 0x01] := rfl
  rw [hbytes] at htext hrows hloaded
  refine ⟨?_, ?_, ?_⟩
  · rw [htext]
    decide +kernel
  · rw [hrows]
    decide +kernel
  · obtain ⟨loaded, hload, hfetch⟩ := hloaded .blank 0xFA (by decide)
    refine ⟨loaded, hload, fun m hmem hpc => ?_⟩
    obtain ⟨j, hj, hop, hoperands⟩ := (hfetch 2 ⟨.hlt, 9, 9⟩ rfl).2 m hmem (by rw [hpc]; rfl)
    have hencode := hmemory m j hj
    have hhalt : j.encode = [0x01] := by rw [Instruction.encode, hop, hoperands]; rfl
    rw [hhalt, hop, hpc] at hencode
    exact ⟨j, hj, hop, hoperands, (List.cons.inj hencode).1.symm⟩

end LS8
