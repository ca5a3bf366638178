import LS8.Listing
import LS8.Proofs.Characters
/-! The text of an instruction is the mnemonic and, if there are operands, a blank and the operands
with commas between them. Both can be read back, so the text says as much about an instruction as
its encoding does (`text_eq_iff`, `encode_eq_iff`). No data byte is written like an instruction. -/

namespace LS8

namespace Opcode

theorem mnemonic_injective {x y : Opcode} (h : x.mnemonic = y.mnemonic) : x = y := by
  have := ofMnemonic?_mnemonic x
  rw [h, ofMnemonic?_mnemonic] at this
  exact (Option.some.inj this).symm

theorem isAlphanum_mnemonic (op : Opcode) : ∀ c ∈ op.mnemonic.toList, c.isAlphanum := by
  have hall : op.mnemonic.toList.all Char.isAlphanum := by
    cases op <;> rfl
  exact List.all_eq_true.1 hall

end Opcode

namespace Instruction

variable {i j : Instruction}

theorem encode_eq_iff : i.encode = j.encode ↔ i.opcode = j.opcode ∧ i.operands = j.operands := by
  rw [encode, encode, List.cons.injEq]
  exact and_congr_left' ⟨Opcode.byte_injective, congrArg Opcode.byte⟩

def operandTexts (i : Instruction) : List (List Char) :=
  match i.opcode, i.operands with
  | .ldi, [a, b] => ['R' :: Nat.toDigits 10 a.toNat, Nat.toDigits 10 b.toNat]
  | _, bytes => bytes.map fun b => 'R' :: Nat.toDigits 10 b.toNat

def operandColumn : List (List Char) → List Char
  | [] => []
  | texts => ' ' :: [','].intercalate texts

theorem toList_text (i : Instruction) :
    i.text.toList = i.opcode.mnemonic.toList ++ operandColumn i.operandTexts := by
  obtain ⟨op, a, b⟩ := i
  cases op <;> simp [text, operandTexts, operands, Opcode.operandCount, Opcode.byte, operandColumn]
  all_goals rfl

def operandOfText (cs : List Char) : UInt8 :=
  UInt8.ofNat (Nat.ofDigitChars 10 (cs.filter Char.isDigit) 0)

theorem operandOfText_toDigits (b : UInt8) : operandOfText (Nat.toDigits 10 b.toNat) = b := by
  rw [operandOfText, List.filter_eq_self.2 (Numeral.isDigit_toDigits b.toNat),
    Nat.ofDigitChars_ten_toDigits, UInt8.ofNat_toNat]

theorem operandOfText_register (b : UInt8) :
    operandOfText ('R' :: Nat.toDigits 10 b.toNat) = b :=
  operandOfText_toDigits b

theorem map_operandOfText (i : Instruction) : i.operandTexts.map operandOfText = i.operands := by
  unfold operandTexts
  split
  next h =>
    rw [h, List.map_cons, List.map_singleton, operandOfText_register, operandOfText_toDigits]
  next =>
    have hid : (operandOfText ∘ fun b => 'R' :: Nat.toDigits 10 b.toNat) = id :=
      funext operandOfText_register
    rw [List.map_map, hid, List.map_id]

/-- An operand is not empty and holds neither a blank nor a comma. -/
theorem isAlphanum_operandTexts (i : Instruction) :
    ∀ t ∈ i.operandTexts, t ≠ [] ∧ ∀ c ∈ t, c.isAlphanum := by
  have hdigits (b : UInt8) : ∀ c ∈ Nat.toDigits 10 b.toNat, c.isAlphanum := by
    intro c hc
    rw [Char.isAlphanum, Numeral.isDigit_toDigits b.toNat c hc, Bool.or_true]
  have hregister (b : UInt8) : ∀ c ∈ 'R' :: Nat.toDigits 10 b.toNat, c.isAlphanum :=
    List.forall_mem_cons.2 ⟨by decide, hdigits b⟩
  unfold operandTexts
  split
  next a b _ _ =>
    intro t ht
    rw [List.mem_cons, List.mem_singleton] at ht
    rcases ht with rfl | rfl
    · exact ⟨List.cons_ne_nil _ _, hregister a⟩
    · exact ⟨Nat.toDigits_ne_nil, hdigits b⟩
  next =>
    rw [List.forall_mem_map]
    exact fun b _ => ⟨List.cons_ne_nil _ _, hregister b⟩

theorem not_mem_operandTexts {d : Char} (hd : ¬ d.isAlphanum) :
    ∀ t ∈ i.operandTexts, d ∉ t :=
  fun t ht hmem => hd ((isAlphanum_operandTexts i t ht).2 d hmem)

theorem operandColumn_injective {ts us : List (List Char)} (ht : ∀ t ∈ ts, ',' ∉ t)
    (hu : ∀ u ∈ us, ',' ∉ u) (h : operandColumn ts = operandColumn us) : ts = us := by
  cases ts with
  | nil =>
    cases us with
    | nil => rfl
    | cons u us => cases h
  | cons t ts =>
    cases us with
    | nil => cases h
    | cons u us =>
      have hjoin := congrArg (List.splitOn ',') (List.cons.inj h).2
      rwa [List.splitOn_intercalate _ ht (List.cons_ne_nil _ _),
        List.splitOn_intercalate _ hu (List.cons_ne_nil _ _)] at hjoin

theorem operandColumn_of_ne_nil {ts : List (List Char)} (h : ts ≠ []) :
    operandColumn ts = ' ' :: [','].intercalate ts := by
  cases ts with
  | nil => exact absurd rfl h
  | cons t ts => rfl

theorem takeWhile_text (i : Instruction) :
    i.text.toList.takeWhile (· ≠ ' ') = i.opcode.mnemonic.toList := by
  have hblank : ' ' ∉ i.opcode.mnemonic.toList := by
    intro hmem
    have := Opcode.isAlphanum_mnemonic i.opcode ' ' hmem
    cases this
  have hcolumn (ts : List (List Char)) :
      operandColumn ts = [] ∨ (operandColumn ts).head? = some ' ' := by
    cases ts with
    | nil => exact .inl rfl
    | cons t ts => exact .inr rfl
  rw [toList_text, Text.takeWhile_append_separator hblank (hcolumn _)]

/-- Instructions that are written alike have the same operation and the same operands. -/
theorem text_eq_iff : i.text = j.text ↔ i.opcode = j.opcode ∧ i.operands = j.operands := by
  constructor
  · intro h
    have hmnemonic := congrArg (fun s => s.toList.takeWhile (· ≠ ' ')) h
    rw [takeWhile_text, takeWhile_text] at hmnemonic
    have hop : i.opcode = j.opcode := Opcode.mnemonic_injective (String.toList_inj.1 hmnemonic)
    have hcolumn := congrArg String.toList h
    rw [toList_text, toList_text, hop] at hcolumn
    have htexts := operandColumn_injective (not_mem_operandTexts (by decide))
      (not_mem_operandTexts (by decide)) (List.append_cancel_left hcolumn)
    rw [← map_operandOfText, htexts, map_operandOfText]
    exact ⟨hop, rfl⟩
  · rintro ⟨hop, hoperands⟩
    rw [text, text, hop, hoperands]

theorem text_eq_iff_encode_eq : i.text = j.text ↔ i.encode = j.encode :=
  text_eq_iff.trans encode_eq_iff.symm

theorem exists_intercalate_concat (ts : List (List Char)) (t : List Char) :
    ∃ before, [','].intercalate (ts ++ [t]) = before ++ t := by
  induction ts with
  | nil => exact ⟨[], List.intercalate_singleton⟩
  | cons u ts ih =>
    obtain ⟨before, h⟩ := ih
    refine ⟨u ++ [','] ++ before, ?_⟩
    rw [List.cons_append, List.intercalate_cons_of_ne_nil (by simp), h, List.append_assoc _ before]

/-- The text ends with a letter or a digit. -/
theorem isAlphanum_getLast?_text (i : Instruction) :
    ∀ c ∈ i.text.toList.getLast?, c.isAlphanum := by
  rw [toList_text]
  rcases List.eq_nil_or_concat i.operandTexts with h | ⟨ts, t, h⟩
  · intro c hc
    rw [h, operandColumn, List.append_nil] at hc
    exact Opcode.isAlphanum_mnemonic i.opcode c (List.mem_of_mem_getLast? hc)
  · rw [List.concat_eq_append] at h
    obtain ⟨before, hbefore⟩ := exists_intercalate_concat ts t
    obtain ⟨hne, halphanum⟩ := isAlphanum_operandTexts i t (by simp [h])
    intro c hc
    rw [h, operandColumn_of_ne_nil (by simp), hbefore, ← List.cons_append, ← List.append_assoc,
      List.getLast?_append, List.getLast?_eq_some_getLast hne, Option.some_or] at hc
    obtain rfl := Option.mem_some_iff.1 hc
    exact halphanum _ (List.getLast_mem hne)

theorem not_mem_text {d : Char} (hd : ¬ d.isAlphanum) (hblank : d ≠ ' ') (hcomma : d ≠ ',') :
    d ∉ i.text.toList := by
  rw [toList_text, List.mem_append, not_or]
  refine ⟨fun hmem => hd (Opcode.isAlphanum_mnemonic i.opcode d hmem), ?_⟩
  have hjoin := Text.not_mem_intercalate hcomma (not_mem_operandTexts (i := i) hd)
  cases hts : i.operandTexts with
  | nil => exact List.not_mem_nil
  | cons t ts =>
    rw [hts] at hjoin
    exact List.not_mem_cons_of_ne_of_not_mem hblank hjoin

end Instruction

namespace Listing

/-- A text in a listing and the bytes that it stands for. -/
inductive Denotes : String → List UInt8 → Prop
  | instruction (i : Instruction) : Denotes i.text i.encode
  | data (b : UInt8) : Denotes ("DB 0x" ++ Numeral.hex b) [b]

theorem toList_data (b : UInt8) :
    ("DB 0x" ++ Numeral.hex b).toList = "DB 0x".toList ++ (Numeral.hex b).toList :=
  String.toList_append

theorem takeWhile_data (b : UInt8) :
    ("DB 0x" ++ Numeral.hex b).toList.takeWhile (· ≠ ' ') = "DB".toList := by
  rw [toList_data]
  rfl

theorem isAlphanum_getLast?_data (b : UInt8) :
    ∀ c ∈ ("DB 0x" ++ Numeral.hex b).toList.getLast?, c.isAlphanum := by
  intro c hc
  have hne : (Numeral.hex b).toList ≠ [] := by
    rw [Numeral.hex, String.toList_ofList]
    exact List.cons_ne_nil _ _
  rw [toList_data, List.getLast?_append, List.getLast?_eq_some_getLast hne, Option.some_or] at hc
  obtain rfl := Option.mem_some_iff.1 hc
  exact Numeral.isAlphanum_hex b _ (List.getLast_mem hne)

theorem not_mem_data {d : Char} (hd : ¬ d.isAlphanum) (hblank : d ≠ ' ') (b : UInt8) :
    d ∉ ("DB 0x" ++ Numeral.hex b).toList := by
  have hname : "DB 0x".toList.all (fun c => c.isAlphanum || c == ' ') := rfl
  rw [toList_data, List.mem_append, not_or]
  refine ⟨fun hmem => ?_, fun hmem => hd (Numeral.isAlphanum_hex b d hmem)⟩
  have hor := List.all_eq_true.1 hname d hmem
  rw [Bool.or_eq_true, beq_iff_eq] at hor
  exact hor.elim hd hblank

/-- No operation has the name that data has. -/
theorem text_ne_data (i : Instruction) (b : UInt8) : i.text ≠ "DB 0x" ++ Numeral.hex b := by
  intro h
  have hname := congrArg (fun s => s.toList.takeWhile (· ≠ ' ')) h
  rw [Instruction.takeWhile_text, takeWhile_data, String.toList_inj] at hname
  have := Opcode.ofMnemonic?_mnemonic i.opcode
  rw [hname] at this
  cases this

theorem Denotes.unique {t : String} {bytes bytes' : List UInt8} (h : Denotes t bytes)
    (h' : Denotes t bytes') : bytes = bytes' := by
  generalize ht : t = t' at h'
  cases h with
  | instruction i =>
    cases h' with
    | instruction j => exact Instruction.text_eq_iff_encode_eq.1 ht
    | data b => exact absurd ht (text_ne_data i b)
  | data b =>
    cases h' with
    | instruction j => exact absurd ht.symm (text_ne_data j b)
    | data b' =>
      have hhex : Numeral.hex b = Numeral.hex b' := (String.append_right_inj _).1 ht
      rw [Numeral.hex_injective hhex]

end Listing

end LS8
