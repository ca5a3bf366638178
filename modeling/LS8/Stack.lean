import LS8.Memory
import LS8.Registers
/-! The stack: it lies in memory below the stack pointer's start and grows toward address zero. A
push moves the stack pointer down and then writes, a pop reads and then moves it up. The pointer
never wraps: a push at address zero and a pop at the last address fail. A pop takes back a push, but
for the cell (`pop_push`). -/

namespace LS8

inductive StackFault where
  | overflow
  | underflow
  | register (e : NoSuchRegister)
deriving DecidableEq, Repr

def StackFault.message : StackFault → String
  | overflow => "stack overflow: SP would move below address 0x00"
  | underflow => "stack underflow: SP would move past address 0xFF"
  | register e => e.message

namespace Stack

def lower (r : Registers) : Except StackFault Registers :=
  if r.sp = 0 then .error .overflow else .ok (r.setSp (r.sp - 1))

def push (r : Registers) (m : Memory) (v : UInt8) : Except StackFault (Registers × Memory) := do
  let r ← lower r
  return (r, m.write r.sp v)

def pop (r : Registers) (m : Memory) : Except StackFault (UInt8 × Registers) :=
  if r.sp = 0xFF then .error .underflow else .ok (m.read r.sp, r.setSp (r.sp + 1))

/-- Pushes the register that the byte `i` names. It is read after the stack pointer has moved, so
pushing the stack pointer stores its new value. -/
def pushRegister (r : Registers) (m : Memory) (i : UInt8) :
    Except StackFault (Registers × Memory) := do
  (Registers.check i).mapError .register
  let r ← lower r
  let v ← (r.get i).mapError .register
  return (r, m.write r.sp v)

/-- A push is undone by a pop, but for the cell. -/
theorem pop_push {r r' : Registers} {m m' : Memory} {v : UInt8}
    (h : push r m v = .ok (r', m')) : pop r' m' = .ok (v, r) := by
  unfold push lower at h
  split at h
  · cases h
  next h0 =>
    cases h
    have : r.sp - 1 ≠ 0xFF := fun e => h0 (by
      have := congrArg (· + 1) e
      simpa using this)
    simp [pop, this]

end Stack

end LS8
