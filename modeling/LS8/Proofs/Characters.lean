import LS8.Numeral
import Mathlib.Data.List.DropRight
/-! Texts character by character: what stands before a separator, padding, and numbers in writing.
An address in a listing is read back from its hexadecimal digits (`ofHexUpper?_hexUpper`), and two
bytes that are written alike are equal. -/

namespace LS8

namespace Text

section Separator

variable {d : Char} {cs rest : List Char}

theorem takeWhile_append_separator (h : d ∉ cs) (hr : rest = [] ∨ rest.head? = some d) :
    (cs ++ rest).takeWhile (· ≠ d) = cs := by
  have hcs : ∀ x ∈ cs, decide (x ≠ d) = true := by
    intro x hx
    rw [decide_eq_true_eq]
    rintro rfl
    exact h hx
  rw [List.takeWhile_append_of_pos hcs]
  rcases rest with _ | ⟨x, rest⟩
  · exact List.append_nil cs
  · obtain rfl : x = d := by simpa using hr
    simp

theorem dropWhile_append_separator (h : d ∉ cs) (hr : rest = [] ∨ rest.head? = some d) :
    (cs ++ rest).dropWhile (· ≠ d) = rest := by
  have hsplit := List.takeWhile_append_dropWhile (p := (· ≠ d)) (l := cs ++ rest)
  rw [takeWhile_append_separator h hr] at hsplit
  exact List.append_cancel_left hsplit

end Separator

theorem rdropWhile_append_of_pos {p : Char → Bool} {after : List Char} (h : ∀ x ∈ after, p x)
    (cs : List Char) : (cs ++ after).rdropWhile p = cs.rdropWhile p := by
  have hrev : ∀ x ∈ after.reverse, p x := fun x hx => h x (List.mem_reverse.1 hx)
  rw [List.rdropWhile, List.reverse_append, List.dropWhile_append_of_pos hrev]
  rfl

theorem not_mem_intercalate {separator d : Char} {ts : List (List Char)} (hd : d ≠ separator)
    (h : ∀ t ∈ ts, d ∉ t) : d ∉ [separator].intercalate ts := by
  induction ts with
  | nil => exact List.not_mem_nil
  | cons t ts ih =>
    obtain ⟨ht, hts⟩ := List.forall_mem_cons.1 h
    cases ts with
    | nil => rwa [List.intercalate_singleton]
    | cons u us =>
      rw [List.intercalate_cons_cons, List.mem_append, List.mem_append, List.mem_singleton]
      exact not_or.2 ⟨not_or.2 ⟨ht, hd⟩, ih hts⟩

theorem toList_pushn (c : Char) (n : Nat) : ("".pushn c n).toList = List.replicate n c := by
  rw [String.pushn_eq_repeat_push]
  induction n with
  | zero => rfl
  | succ n ih => rw [Nat.repeat, String.toList_push, ih, List.replicate_succ']

end Text

namespace Numeral

theorem isDigit_toDigits (n : Nat) : ∀ c ∈ Nat.toDigits 10 n, c.isDigit :=
  fun _ hc => Nat.isDigit_of_mem_toDigits (by decide) (by decide) hc

def hexDigits : List Char :=
  ['0', '1', '2', '3', '4', '5', '6', '7', '8', '9', 'A', 'B', 'C', 'D', 'E', 'F']

def addHexDigit? (n : Nat) (c : Char) : Option Nat :=
  (hexDigits.idxOf? c).map (16 * n + ·)

def ofHexUpper? (cs : List Char) : Option Nat :=
  cs.foldlM addHexDigit? 0

theorem addHexDigit?_digitChar (n : Nat) {d : Nat} (h : d < 16) :
    addHexDigit? n (Nat.digitChar d).toUpper = some (16 * n + d) := by
  have hdigit : ∀ d < 16, hexDigits.idxOf? (Nat.digitChar d).toUpper = some d := by decide
  rw [addHexDigit?, hdigit d h]
  rfl

/-- By induction on the number, digit by digit from its end. -/
theorem ofHexUpper?_toDigits (n : Nat) :
    ofHexUpper? ((Nat.toDigits 16 n).map Char.toUpper) = some n := by
  induction n using Nat.strongRecOn with
  | ind n ih =>
    rw [Nat.toDigits_eq_if (by decide)]
    split
    next h => simp [ofHexUpper?, addHexDigit?_digitChar 0 h]
    next h =>
      have hlt : n / 16 < n := by omega
      have hlast := addHexDigit?_digitChar (n / 16) (Nat.mod_lt n (by decide : 0 < 16))
      rw [Nat.div_add_mod] at hlast
      rw [List.map_append, ofHexUpper?, List.foldlM_append, ← ofHexUpper?, ih _ hlt]
      simp [hlast]

theorem ofHexUpper?_replicate_append (k : Nat) (cs : List Char) :
    ofHexUpper? (List.replicate k '0' ++ cs) = ofHexUpper? cs := by
  induction k with
  | zero => rfl
  | succ k ih => exact ih

theorem ofHexUpper?_hexUpper (n : Nat) : ofHexUpper? (hexUpper n).toList = some n := by
  rw [hexUpper, String.toList_ofList, ofHexUpper?_replicate_append, ofHexUpper?_toDigits]

theorem mem_hexDigits_of_foldlM {cs : List Char} {n m : Nat}
    (h : cs.foldlM addHexDigit? n = some m) : ∀ c ∈ cs, c ∈ hexDigits := by
  induction cs generalizing n with
  | nil => simp
  | cons c cs ih =>
    rw [List.foldlM_cons] at h
    obtain ⟨k, hk, hrest⟩ := Option.bind_eq_some_iff.1 h
    have hc : c ∈ hexDigits := by
      apply Decidable.byContradiction
      intro hc
      rw [addHexDigit?, List.idxOf?_eq_none_iff.2 hc] at hk
      cases hk
    exact List.forall_mem_cons.2 ⟨hc, ih hrest⟩

theorem mem_hexDigits (n : Nat) : ∀ c ∈ (hexUpper n).toList, c ∈ hexDigits :=
  mem_hexDigits_of_foldlM (ofHexUpper?_hexUpper n)

theorem isBit_bits (b : UInt8) : ∀ c ∈ bits b, isBit c :=
  List.all_eq_true.1 (ofBits?_eq_some_iff.1 (ofBits?_bits b)).1.2

theorem isAlphanum_hex (b : UInt8) : ∀ c ∈ (hex b).toList, c.isAlphanum := by
  have hdigit : ∀ d < 16, (Nat.digitChar d).isAlphanum := by decide
  have hb := b.toNat_lt
  rw [hex, String.toList_ofList, List.forall_mem_cons, List.forall_mem_singleton]
  exact ⟨hdigit _ (by omega), hdigit _ (by omega)⟩

theorem hex_injective {a b : UInt8} (h : hex a = hex b) : a = b := by
  have hchars := String.ofList_inj.1 h
  have hdigit : ∀ d < 16, ∀ e < 16, Nat.digitChar d = Nat.digitChar e → d = e := by decide
  have ha := a.toNat_lt
  have hb := b.toNat_lt
  rw [List.cons.injEq, List.cons.injEq] at hchars
  have hhigh := hdigit _ (by omega) _ (by omega) hchars.1
  have hlow := hdigit _ (by omega) _ (by omega) hchars.2.1
  apply UInt8.toNat_inj.1
  omega

end Numeral

end LS8
