/-! The flags register. A comparison leaves exactly one of three bits; before the first comparison
no bit is set. A restored machine may hold any byte here, so the three tests look at one bit each.
-/

namespace LS8

structure Flags where
  bits : UInt8
deriving DecidableEq, Repr, Inhabited

namespace Flags

def clear : Flags := ⟨0⟩

def less : Flags := ⟨0b100⟩

def greater : Flags := ⟨0b010⟩

def equal : Flags := ⟨0b001⟩

/-- The outcome of comparing two bytes without sign. -/
def ofComparison (a b : UInt8) : Flags :=
  if a < b then less else if a = b then equal else greater

def isLess (f : Flags) : Bool :=
  f.bits &&& less.bits != 0

def isGreater (f : Flags) : Bool :=
  f.bits &&& greater.bits != 0

def isEqual (f : Flags) : Bool :=
  f.bits &&& equal.bits != 0

/-- The three bits in words, such as `FL=-G-`. -/
def text (f : Flags) : String :=
  let l := if f.isLess then "L" else "-"
  let g := if f.isGreater then "G" else "-"
  let e := if f.isEqual then "E" else "-"
  s!"FL={l}{g}{e}"

theorem ofComparison_of_lt {a b : UInt8} (h : a < b) : ofComparison a b = less :=
  if_pos h

@[simp] theorem ofComparison_self (a : UInt8) : ofComparison a a = equal := by
  simp [ofComparison]

theorem ofComparison_of_gt {a b : UInt8} (h : b < a) : ofComparison a b = greater := by
  have : a ≠ b := (UInt8.ne_of_lt h).symm
  simp [ofComparison, UInt8.lt_asymm h, this]

end Flags

end LS8
