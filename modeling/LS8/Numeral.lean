/-! Bytes and addresses in writing. A byte is eight binary digits or two hexadecimal ones, an
address in a listing has at least two hexadecimal digits. `ofBits?` reads the binary form back and
`ofBits?_bits` says that nothing is lost on the way. -/

namespace LS8.Numeral

def isBit (c : Char) : Bool :=
  c = '0' || c = '1'

/-- The eight binary digits of a byte, highest first. -/
def bits (b : UInt8) : List Char :=
  [7, 6, 5, 4, 3, 2, 1, 0].map fun i => if b.toNat.testBit i then '1' else '0'

def ofBits (cs : List Char) : Nat :=
  cs.foldl (fun n c => 2 * n + if c = '1' then 1 else 0) 0

/-- Reads a byte from exactly eight binary digits. -/
def ofBits? (cs : List Char) : Option UInt8 :=
  if cs.length = 8 ∧ cs.all isBit then some (UInt8.ofNat (ofBits cs)) else none

def binary (b : UInt8) : String :=
  String.ofList (bits b)

def hex (b : UInt8) : String :=
  String.ofList [Nat.digitChar (b.toNat / 16), Nat.digitChar (b.toNat % 16)]

/-- A number in hexadecimal digits in upper case, at least two of them. -/
def hexUpper (n : Nat) : String :=
  let ds := (Nat.toDigits 16 n).map Char.toUpper
  String.ofList (List.replicate (2 - ds.length) '0' ++ ds)

theorem ofBits?_eq_some_iff {cs : List Char} {b : UInt8} :
    ofBits? cs = some b ↔ (cs.length = 8 ∧ cs.all isBit) ∧ UInt8.ofNat (ofBits cs) = b := by
  by_cases h : cs.length = 8 ∧ cs.all isBit <;> simp only [ofBits?, h] <;> simp

theorem ofBits?_isSome_iff {cs : List Char} :
    (ofBits? cs).isSome ↔ cs.length = 8 ∧ cs.all isBit := by
  by_cases h : cs.length = 8 ∧ cs.all isBit <;> simp only [ofBits?, h] <;> simp

theorem ofBits?_bits (b : UInt8) : ofBits? (bits b) = some b := by
  have h : ∀ n < 256, ofBits? (bits (UInt8.ofNat n)) = some (UInt8.ofNat n) := by decide +kernel
  simpa using h b.toNat b.toNat_lt

end LS8.Numeral
