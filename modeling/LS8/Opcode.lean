/-! The thirteen operations and their opcode bytes. A byte is laid out as `AABCDDDD`: `AA` counts
the operand bytes that follow, `B` marks arithmetic and comparison, `C` marks the operations that
may set the program counter themselves, `DDDD` tells apart what is left. Operand count, width and
both marks are read from the byte and not listed a second time. -/

namespace LS8

inductive Opcode where
  | hlt | ldi | prn | add | mul | push | pop | call | ret | cmp | jmp | jeq | jne
deriving DecidableEq, Repr, Inhabited

namespace Opcode

/-- Every operation, in the order of the instruction table. -/
def all : List Opcode :=
  [hlt, ldi, prn, add, mul, push, pop, call, ret, cmp, jmp, jeq, jne]

def byte : Opcode → UInt8
  | hlt => 0b00000001
  | ldi => 0b10000010
  | prn => 0b01000111
  | add => 0b10100000
  | mul => 0b10100010
  | push => 0b01000101
  | pop => 0b01000110
  | call => 0b01010000
  | ret => 0b00010001
  | cmp => 0b10100111
  | jmp => 0b01010100
  | jeq => 0b01010101
  | jne => 0b01010110

def ofByte? (b : UInt8) : Option Opcode :=
  all.find? fun op => op.byte == b

def operandCount (op : Opcode) : Nat :=
  (op.byte >>> 6).toNat

def width (op : Opcode) : Nat :=
  1 + op.operandCount

def isAlu (op : Opcode) : Bool :=
  op.byte &&& 0b00100000 != 0

def setsPc (op : Opcode) : Bool :=
  op.byte &&& 0b00010000 != 0

/-- The name in program text. -/
def mnemonic : Opcode → String
  | hlt => "HLT"
  | ldi => "LDI"
  | prn => "PRN"
  | add => "ADD"
  | mul => "MUL"
  | push => "PUSH"
  | pop => "POP"
  | call => "CALL"
  | ret => "RET"
  | cmp => "CMP"
  | jmp => "JMP"
  | jeq => "JEQ"
  | jne => "JNE"

/-- The name in a saved machine. -/
def name : Opcode → String
  | hlt => "Hlt"
  | ldi => "Ldi"
  | prn => "Prn"
  | add => "Add"
  | mul => "Mul"
  | push => "Push"
  | pop => "Pop"
  | call => "Call"
  | ret => "Ret"
  | cmp => "Cmp"
  | jmp => "Jmp"
  | jeq => "Jeq"
  | jne => "Jne"

def ofMnemonic? (s : String) : Option Opcode :=
  all.find? fun op => op.mnemonic == s

def ofName? (s : String) : Option Opcode :=
  all.find? fun op => op.name == s

@[simp] theorem ofByte?_byte (op : Opcode) : ofByte? op.byte = some op := by
  cases op <;> decide

@[simp] theorem ofName?_name (op : Opcode) : ofName? op.name = some op := by
  cases op <;> decide

@[simp] theorem ofMnemonic?_mnemonic (op : Opcode) : ofMnemonic? op.mnemonic = some op := by
  cases op <;> decide

theorem byte_of_ofByte? {b : UInt8} {op : Opcode} (h : ofByte? b = some op) : op.byte = b := by
  simpa using List.find?_some h

theorem byte_injective {x y : Opcode} (h : x.byte = y.byte) : x = y := by
  have := ofByte?_byte x
  rw [h, ofByte?_byte] at this
  exact (Option.some.inj this).symm

theorem operandCount_le (op : Opcode) : op.operandCount ≤ 2 := by
  cases op <;> decide

theorem width_pos (op : Opcode) : 0 < op.width := by
  unfold width; omega

theorem isAlu_iff (op : Opcode) : op.isAlu = true ↔ op = .add ∨ op = .mul ∨ op = .cmp := by
  cases op <;> decide

theorem setsPc_iff (op : Opcode) :
    op.setsPc = true ↔ op = .call ∨ op = .ret ∨ op = .jmp ∨ op = .jeq ∨ op = .jne := by
  cases op <;> decide

end Opcode

end LS8
