import LS8.Image.Line
import LS8.Proofs.Characters
import Mathlib.Data.List.Forall2
/-! The lines of an image file by their grammar. `Cut` says how a file falls into lines, `IsCode`
what part of a line's text is its code, and `Says` what a line of bytes says: a code, or nothing if
its bytes are no text. Both are unambiguous, so a file says exactly one sequence of these
(`codes_iff`). -/

namespace LS8

namespace Text

/-- A byte sequence and its lines. A line feed ends a line, and so does a carriage return with a
line feed after it. What stands after the last line feed is a line if it is anything at all. -/
inductive Cut : List UInt8 → List (List UInt8) → Prop
  | empty : Cut [] []
  | unended {l : List UInt8} : l ≠ [] → 10 ∉ l → Cut l [l]
  | feed {l rest : List UInt8} {ls : List (List UInt8)} :
      10 ∉ l → l.getLast? ≠ some 13 → Cut rest ls → Cut (l ++ 10 :: rest) (l :: ls)
  | returnFeed {l rest : List UInt8} {ls : List (List UInt8)} :
      10 ∉ l → Cut rest ls → Cut (l ++ 13 :: 10 :: rest) (l :: ls)

theorem lines_append_feed {l : List UInt8} (h : 10 ∉ l) (rest : List UInt8) :
    lines (l ++ 10 :: rest) = dropReturn l :: lines rest := by
  have hne : rest.splitOn 10 ≠ [] := List.splitOn_ne_nil 10 rest
  unfold lines
  rw [List.splitOn_append_cons_self_of_not_mem h]
  simp only [List.dropLast_cons_of_ne_nil hne, List.getLast?_cons_of_ne_nil hne, List.map_cons,
    List.cons_append]

theorem lines_of_not_mem {l : List UInt8} (h : 10 ∉ l) (hne : l ≠ []) : lines l = [l] := by
  simp [lines, List.splitOn_eq_singleton h, hne]

theorem Cut.lines_eq {bytes : List UInt8} {ls : List (List UInt8)} (h : Cut bytes ls) :
    lines bytes = ls := by
  induction h with
  | empty => rfl
  | unended hne hl => exact lines_of_not_mem hl hne
  | @feed l rest ls hl hlast _ ih => rw [lines_append_feed hl, ih, dropReturn, if_neg hlast]
  | @returnFeed l rest ls hl _ ih =>
    have hl' : 10 ∉ l ++ [13] := by simpa using hl
    have hcut : l ++ 13 :: 10 :: rest = (l ++ [13]) ++ 10 :: rest := by simp
    rw [hcut, lines_append_feed hl', ih, dropReturn]
    simp

theorem Cut.of_feed {l rest : List UInt8} {ls : List (List UInt8)} (hl : 10 ∉ l)
    (h : Cut rest ls) : Cut (l ++ 10 :: rest) (dropReturn l :: ls) := by
  unfold dropReturn
  split
  next hlast =>
    obtain ⟨l, rfl⟩ := List.getLast?_eq_some_iff.1 hlast
    rw [List.append_assoc, List.dropLast_concat]
    exact .returnFeed (fun hm => hl (List.mem_append_left _ hm)) h
  next hlast => exact .feed hl hlast h

/-- By induction on the length, from one line feed to the next. -/
theorem cut_lines (bytes : List UInt8) : Cut bytes (lines bytes) := by
  induction hn : bytes.length using Nat.strong_induction_on generalizing bytes with
  | _ n ih =>
    by_cases h : 10 ∈ bytes
    · obtain ⟨l, rest, rfl, hl⟩ := List.eq_append_cons_of_mem h
      rw [lines_append_feed hl]
      have hlt : rest.length < n := by
        rw [← hn, List.length_append, List.length_cons]
        omega
      exact .of_feed hl (ih rest.length hlt rest rfl)
    · rcases List.eq_nil_or_concat bytes with rfl | ⟨init, b, rfl⟩
      · exact .empty
      · rw [lines_of_not_mem h (by simp)]
        exact .unended (by simp) h

theorem ofUtf8?_eq_some_iff {bytes : List UInt8} {s : String} :
    ofUtf8? bytes = some s ↔ s.toUTF8.data.toList = bytes := by
  unfold ofUtf8? String.fromUTF8?
  constructor
  · intro h
    split at h
    next hv =>
      cases h
      rfl
    next => cases h
  · rintro rfl
    have hv : ByteArray.IsValidUTF8 ⟨s.toUTF8.data.toList.toArray⟩ := s.isValidUTF8
    rw [dif_pos hv]
    rfl

theorem toList_loop_eq (bytes : ByteArray) (i : Nat) (read : List UInt8) :
    ByteArray.toList.loop bytes i read = read.reverse ++ bytes.data.toList.drop i := by
  induction hn : bytes.size - i generalizing i read with
  | zero =>
    have hi : bytes.data.toList.length ≤ i := Nat.le_of_sub_eq_zero hn
    rw [ByteArray.toList.loop, if_neg (by omega), List.drop_eq_nil_of_le hi, List.append_nil]
  | succ n ih =>
    have hi : i < bytes.data.toList.length := Nat.lt_of_sub_eq_succ hn
    have hget : bytes.get! i = bytes.data.toList[i] := getElem!_pos bytes.data i hi
    rw [ByteArray.toList.loop, if_pos (by omega), ih (i + 1) _ (by omega), hget,
      List.drop_eq_getElem_cons hi, List.reverse_cons, List.append_assoc]
    rfl

theorem toList_eq (bytes : ByteArray) : bytes.toList = bytes.data.toList :=
  toList_loop_eq bytes 0 []

theorem trim_append {before c after : List Char} (hb : ∀ x ∈ before, isBlank x)
    (ha : ∀ x ∈ after, isBlank x) (hhead : ∀ x ∈ c.head?, ¬ isBlank x)
    (hlast : ∀ x ∈ c.getLast?, ¬ isBlank x) : trim (before ++ c ++ after) = c := by
  have hc : c.rdropWhile isBlank = c :=
    List.rdropWhile_eq_self_iff.2 fun hne => hlast _ (List.getLast?_eq_some_getLast hne)
  change ((before ++ c ++ after).dropWhile isBlank).rdropWhile isBlank = c
  rw [List.append_assoc, List.dropWhile_append_of_pos hb]
  rcases c with _ | ⟨x, c⟩
  · have hnil : after.dropWhile isBlank = [] := List.dropWhile_eq_nil_iff.2 ha
    rw [List.nil_append, hnil]
    rfl
  · have hx : ¬ isBlank x := hhead x rfl
    rw [List.cons_append, List.dropWhile_cons_of_neg hx, ← List.cons_append,
      rdropWhile_append_of_pos ha, hc]

theorem not_isBlank_of_head? (cs : List Char) {x : Char}
    (h : (cs.dropWhile isBlank).head? = some x) : ¬ isBlank x := by
  have hnot := List.head?_dropWhile_not isBlank cs
  rw [h] at hnot
  simp [hnot]

/-- What is left of a text between the white space at its ends. -/
theorem exists_trim (cs : List Char) : ∃ before after, cs = before ++ trim cs ++ after ∧
    (∀ x ∈ before, isBlank x) ∧ (∀ x ∈ after, isBlank x) ∧
    (∀ x ∈ (trim cs).head?, ¬ isBlank x) ∧ ∀ x ∈ (trim cs).getLast?, ¬ isBlank x := by
  have htrim : trim cs = (cs.dropWhile isBlank).rdropWhile isBlank := rfl
  refine ⟨cs.takeWhile isBlank, (cs.dropWhile isBlank).rtakeWhile isBlank, ?_, ?_, ?_, ?_, ?_⟩
  · rw [htrim, List.append_assoc, List.rdropWhile_append_rtakeWhile,
      List.takeWhile_append_dropWhile]
  · intro x hx
    exact List.mem_takeWhile_imp hx
  · intro x hx
    exact List.mem_rtakeWhile_imp hx
  · intro x hx
    -- trimming on the right leaves a prefix, so the first character is that of `dropWhile`
    obtain ⟨t, ht⟩ : trim cs <+: cs.dropWhile isBlank := List.rdropWhile_prefix _ _
    apply not_isBlank_of_head? cs
    rw [← ht, List.head?_append, hx]
    rfl
  · intro x hx
    apply not_isBlank_of_head? (cs.dropWhile isBlank).reverse
    rw [← List.getLast?_reverse]
    exact hx

end Text

namespace Image

/-- The code `c` of a text `t`: what stands before the first `#`, or in all of the text if there is
none, without the white space around it. -/
def IsCode (t c : List Char) : Prop :=
  ∃ before after comment, t = before ++ c ++ after ++ comment ∧
    '#' ∉ before ++ c ++ after ∧ (comment = [] ∨ comment.head? = some '#') ∧
    (∀ x ∈ before, Text.isBlank x) ∧ (∀ x ∈ after, Text.isBlank x) ∧
    (∀ x ∈ c.head?, ¬ Text.isBlank x) ∧ ∀ x ∈ c.getLast?, ¬ Text.isBlank x

theorem isCode_code (t : List Char) : IsCode t (code t) := by
  obtain ⟨before, after, ht, hrest⟩ := Text.exists_trim (t.takeWhile (· ≠ '#'))
  refine ⟨before, after, t.dropWhile (· ≠ '#'), ?_, ?_, ?_, hrest⟩
  · change t = before ++ Text.trim (t.takeWhile (· ≠ '#')) ++ after ++ _
    rw [← ht, List.takeWhile_append_dropWhile]
  · change '#' ∉ before ++ Text.trim (t.takeWhile (· ≠ '#')) ++ after
    rw [← ht]
    intro hmem
    have := List.mem_takeWhile_imp hmem
    simp at this
  · have hnot := List.head?_dropWhile_not (· ≠ '#') t
    split at hnot
    next c hc =>
      obtain rfl : c = '#' := by simpa using hnot
      exact .inr hc
    next hc => exact .inl (List.head?_eq_none_iff.1 hc)

theorem isCode_iff {t c : List Char} : IsCode t c ↔ c = code t := by
  constructor
  · rintro ⟨before, after, comment, rfl, hno, hcomment, hb, ha, hhead, hlast⟩
    rw [code, Text.takeWhile_append_separator hno hcomment, Text.trim_append hb ha hhead hlast]
  · rintro rfl
    exact isCode_code t

/-- What a line of bytes says: its code, or nothing if the bytes are not UTF-8. -/
def Says (line : List UInt8) : Option (List Char) → Prop
  | some c => ∃ s : String, s.toUTF8.data.toList = line ∧ IsCode s.toList c
  | none => ∀ s : String, s.toUTF8.data.toList ≠ line

/-- The same, computed. -/
def saying (line : List UInt8) : Option (List Char) :=
  (Text.ofUtf8? line).map fun s => code s.toList

theorem says_iff {line : List UInt8} {r : Option (List Char)} : Says line r ↔ saying line = r := by
  unfold saying
  cases hs : Text.ofUtf8? line with
  | none =>
    have hno : ∀ s : String, s.toUTF8.data.toList ≠ line := by
      intro s h
      rw [Text.ofUtf8?_eq_some_iff.2 h] at hs
      cases hs
    cases r with
    | none => exact ⟨fun _ => rfl, fun _ => hno⟩
    | some c => exact ⟨fun ⟨s, h, _⟩ => absurd h (hno s), fun h => nomatch h⟩
  | some s =>
    have hline := Text.ofUtf8?_eq_some_iff.1 hs
    cases r with
    | none => exact ⟨fun h => absurd hline (h s), fun h => nomatch h⟩
    | some c =>
      rw [Option.map_some, Option.some_inj, eq_comm, ← isCode_iff]
      constructor
      · rintro ⟨u, hu, hc⟩
        rw [Text.ofUtf8?_eq_some_iff.2 hu] at hs
        cases hs
        exact hc
      · intro hc
        exact ⟨s, hline, hc⟩

/-- What a file says, line by line. -/
def Codes (file : List UInt8) (cs : List (Option (List Char))) : Prop :=
  ∃ ls, Text.Cut file ls ∧ List.Forall₂ Says ls cs

theorem forall₂_says_iff {ls : List (List UInt8)} {cs : List (Option (List Char))} :
    List.Forall₂ Says ls cs ↔ ls.map saying = cs := by
  induction ls generalizing cs with
  | nil => rw [List.forall₂_nil_left_iff, List.map_nil, eq_comm]
  | cons l ls ih =>
    cases cs with
    | nil => simp
    | cons r cs => rw [List.forall₂_cons, ih, says_iff, List.map_cons, List.cons.injEq]

theorem codes_iff {file : List UInt8} {cs : List (Option (List Char))} :
    Codes file cs ↔ (Text.lines file).map saying = cs := by
  constructor
  · rintro ⟨ls, hcut, hsays⟩
    rw [hcut.lines_eq]
    exact forall₂_says_iff.1 hsays
  · intro h
    exact ⟨_, Text.cut_lines file, forall₂_says_iff.2 h⟩

end Image

end LS8
