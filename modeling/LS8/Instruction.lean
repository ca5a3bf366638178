import LS8.Numeral
import LS8.Opcode
/-! Instructions: an operation with the two bytes that follow it in memory. Both bytes are always
kept, and `operands` are those of them that the operation uses; text and encoding depend on nothing
else. -/

namespace LS8

structure Instruction where
  opcode : Opcode
  a : UInt8
  b : UInt8
deriving DecidableEq, Repr, Inhabited

structure UnknownOpcode where
  byte : UInt8
deriving DecidableEq, Repr

def UnknownOpcode.message (e : UnknownOpcode) : String :=
  s!"unknown opcode 0b{Numeral.binary e.byte}"

namespace Instruction

def operands (i : Instruction) : List UInt8 :=
  [i.a, i.b].take i.opcode.operandCount

def encode (i : Instruction) : List UInt8 :=
  i.opcode.byte :: i.operands

def decode (opcode a b : UInt8) : Except UnknownOpcode Instruction :=
  match Opcode.ofByte? opcode with
  | some op => .ok ⟨op, a, b⟩
  | none => .error ⟨opcode⟩

/-- The instruction in program text, such as `LDI R0,8`. The second operand of a load is a value,
every other operand is a register. -/
def text (i : Instruction) : String :=
  match i.opcode, i.operands with
  | .ldi, [a, b] => s!"{Opcode.ldi.mnemonic} R{a.toNat},{b.toNat}"
  | op, [a, b] => s!"{op.mnemonic} R{a.toNat},R{b.toNat}"
  | op, [a] => s!"{op.mnemonic} R{a.toNat}"
  | op, _ => op.mnemonic

theorem length_operands (i : Instruction) : i.operands.length = i.opcode.operandCount := by
  have := i.opcode.operandCount_le
  simp [operands]
  omega

theorem length_encode (i : Instruction) : i.encode.length = i.opcode.width := by
  simp [encode, length_operands, Opcode.width]
  omega

theorem decode_eq_ok_iff {c a b : UInt8} {i : Instruction} :
    decode c a b = .ok i ↔ i.opcode.byte = c ∧ i.a = a ∧ i.b = b := by
  unfold decode
  split
  · rename_i op h
    have := Opcode.byte_of_ofByte? h
    constructor
    · intro e; cases e; exact ⟨this, rfl, rfl⟩
    · rintro ⟨e, rfl, rfl⟩
      rw [Opcode.byte_injective (this.trans e.symm)]
  · rename_i h
    constructor
    · intro e; cases e
    · rintro ⟨rfl, -, -⟩
      simp at h

theorem decode_eq_error_iff {c a b : UInt8} {e : UnknownOpcode} :
    decode c a b = .error e ↔ Opcode.ofByte? c = none ∧ e = ⟨c⟩ := by
  unfold decode
  split <;> rename_i h <;> simp [h, eq_comm]

end Instruction

end LS8
