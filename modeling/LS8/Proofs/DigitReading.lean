import LS8.Image.Line
import Mathlib.Algebra.Group.Nat.Defs
/-! The digits of a byte, checked and read in two passes. The check looks at the bytes of the text,
of which there must be eight, each of them a zero or a one in writing; the reader takes one digit
after another and fails as soon as the number does not fit in a byte. What has passed the check is
read, and as the byte that `Numeral.ofBits?` finds (`ofBinary?_eq`). -/

namespace LS8.Numeral

def isBitByte (b : UInt8) : Bool :=
  b = 48 || b = 49

/-- Whether a text is written in eight bytes and all of them are binary digits. -/
def isOctetText (s : String) : Bool :=
  s.toUTF8.data.toList.length = 8 && s.toUTF8.data.toList.all isBitByte

def bitValue? (c : Char) : Option Nat :=
  if c = '0' then some 0 else if c = '1' then some 1 else none

/-- Reads digit after digit behind the number `n`, while the number fits in a byte. -/
def readOn? : Nat → List Char → Option Nat
  | n, [] => some n
  | n, c :: cs => do
    let d ← bitValue? c
    if 2 * n + d < 256 then readOn? (2 * n + d) cs else none

/-- Reads a byte in binary digits, however many, but not in none. A plus sign may stand first. -/
def ofBinary? (cs : List Char) : Option UInt8 :=
  let digits := if cs.head? = some '+' then cs.tail else cs
  if digits = [] then none else (readOn? 0 digits).map UInt8.ofNat

theorem isBitByte_ofNat {n : Nat} (h : n < 256) :
    isBitByte (UInt8.ofNat n) = (n = 48 || n = 49 : Bool) := by
  have hiff (b : UInt8) : UInt8.ofNat n = b ↔ n = b.toNat := by
    rw [← UInt8.toNat_inj, UInt8.toNat_ofNat', Nat.mod_eq_of_lt h]
  simp [isBitByte, hiff]

theorem isBit_eq_toNat (c : Char) : isBit c = (c.toNat = 48 || c.toNat = 49 : Bool) := by
  have hiff (d : Char) : c = d ↔ c.toNat = d.toNat := Char.toNat_inj.symm
  simp [isBit, hiff]

/-- Only a binary digit is written in such bytes: what takes more than one byte begins with a byte
that is too large. -/
theorem all_isBitByte_utf8EncodeChar (c : Char) :
    (String.utf8EncodeChar c).all isBitByte = isBit c := by
  have hlead {n : Nat} (bytes : List UInt8) (hc : 127 < c.toNat) (hn : n < 256) (h : 192 ≤ n) :
      (UInt8.ofNat n :: bytes).all isBitByte = isBit c := by
    have hbyte : isBitByte (UInt8.ofNat n) = false := by
      rw [isBitByte_ofNat hn]
      simp
      omega
    have hbit : isBit c = false := by
      rw [isBit_eq_toNat]
      simp
      omega
    rw [List.all_cons, hbyte, hbit]
    rfl
  unfold String.utf8EncodeChar
  dsimp only
  split
  next h =>
    rw [List.all_cons, List.all_nil, Bool.and_true, isBitByte_ofNat (by omega), isBit_eq_toNat]
    rfl
  next h =>
    have hc : 127 < c.toNat := Nat.lt_of_not_le h
    split
    · exact hlead _ hc (by omega) (by omega)
    · split
      · exact hlead _ hc (by omega) (by omega)
      · exact hlead _ hc (by omega) (by omega)

theorem isOctetText_ofList_iff {cs : List Char} :
    isOctetText (String.ofList cs) = true ↔ cs.length = 8 ∧ cs.all isBit := by
  have hbytes : (String.ofList cs).toUTF8.data.toList = cs.flatMap String.utf8EncodeChar := by
    rw [String.toUTF8, String.toByteArray_ofList, List.utf8Encode, List.data_toByteArray]
  have hbits : (cs.flatMap String.utf8EncodeChar).all isBitByte = cs.all isBit := by
    rw [List.all_flatMap]
    exact congrArg cs.all (funext all_isBitByte_utf8EncodeChar)
  rw [isOctetText, hbytes, hbits, Bool.and_eq_true, decide_eq_true_iff]
  refine and_congr_left fun h => ?_
  have hone : ∀ c ∈ cs, (String.utf8EncodeChar c).length = 1 := by
    intro c hc
    obtain rfl | rfl : c = '0' ∨ c = '1' := by simpa [isBit] using List.all_eq_true.1 h c hc
    all_goals rfl
  rw [List.length_flatMap, List.map_congr_left hone, List.map_const', List.sum_replicate_nat,
    Nat.mul_one]

/-- By induction on the digits that are left: the number read so far leaves room for them. -/
theorem readOn?_eq {n : Nat} {cs : List Char} (hbits : cs.all isBit)
    (hroom : (n + 1) * 2 ^ cs.length ≤ 256) :
    readOn? n cs = some (cs.foldl (fun n c => 2 * n + if c = '1' then 1 else 0) n) := by
  induction cs generalizing n with
  | nil => rfl
  | cons c cs ih =>
    obtain ⟨hc, hcs⟩ : isBit c ∧ cs.all isBit := by simpa using hbits
    obtain ⟨d, hd, hvalue, hd1⟩ :
        ∃ d, bitValue? c = some d ∧ (if c = '1' then 1 else 0) = d ∧ d ≤ 1 := by
      obtain rfl | rfl : c = '0' ∨ c = '1' := by simpa [isBit] using hc
      · exact ⟨0, rfl, rfl, Nat.zero_le 1⟩
      · exact ⟨1, rfl, rfl, Nat.le_refl 1⟩
    have hleft : (2 * n + d + 1) * 2 ^ cs.length ≤ 256 := by
      calc (2 * n + d + 1) * 2 ^ cs.length
          ≤ (n + 1) * 2 * 2 ^ cs.length := Nat.mul_le_mul_right _ (by omega)
        _ = (n + 1) * 2 ^ (c :: cs).length := by
          rw [List.length_cons, Nat.pow_succ', Nat.mul_assoc]
        _ ≤ 256 := hroom
    have hfits : 2 * n + d < 256 :=
      Nat.le_trans (Nat.le_mul_of_pos_right _ (Nat.two_pow_pos cs.length)) hleft
    rw [readOn?, hd, List.foldl_cons, hvalue, ← ih hcs hleft]
    exact if_pos hfits

/-- What has passed the check is read. -/
theorem ofBinary?_eq {cs : List Char} (hlength : cs.length = 8) (hbits : cs.all isBit) :
    ofBinary? cs = ofBits? cs := by
  have hne : cs ≠ [] := by
    rintro rfl
    cases hlength
  have hplus : cs.head? ≠ some '+' := fun h =>
    absurd (List.all_eq_true.1 hbits '+' (List.mem_of_mem_head? h)) (by decide)
  have hread := readOn?_eq (n := 0) hbits (by rw [hlength]; decide)
  simp only [ofBinary?, if_neg hplus, if_neg hne, hread]
  rw [ofBits?, if_pos ⟨hlength, hbits⟩]
  rfl

end LS8.Numeral
