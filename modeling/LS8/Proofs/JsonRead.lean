import LS8.Json.Reader
import LS8.Proofs.JsonScan
import Mathlib.Data.List.TakeDrop
/-! Reading back what the printer writes. The reader takes the tokens of a value from any place
where a value may stand and is then after that value (`Exact.writes_tokens`); so a value that text
keeps is read back from its text and the line feed after it (`Exact.parse?_prettyLine`). -/

namespace LS8.Json

open Token

/-! Numbers. -/

theorem head?_toDigits_ne_zero {n : Nat} (h : 0 < n) : (Nat.toDigits 10 n).head? ≠ some '0' := by
  induction n using Nat.strongRecOn with
  | ind n ih =>
    rw [Nat.toDigits_eq_if (by decide)]
    split
    next =>
      intro hhead
      have hzero := Nat.digitChar_eq_zero.1 (Option.some.inj hhead)
      omega
    next =>
      have hne : Nat.toDigits 10 (n / 10) ≠ [] := Nat.toDigits_ne_nil
      rw [List.head?_append_of_ne_nil _ hne]
      exact ih (n / 10) (by omega) (by omega)

theorem span_isDigit {cs : List Char} (h : ∀ c ∈ cs, c.isDigit) :
    cs.span Char.isDigit = (cs, []) := by
  rw [List.span_eq_takeWhile_dropWhile, List.takeWhile_eq_self_iff.2 h,
    List.dropWhile_eq_nil_iff.2 h]

theorem ofWord?_of_digits {cs : List Char} (hne : cs ≠ []) (hdigits : ∀ c ∈ cs, c.isDigit)
    (hzero : cs.head? = some '0' → cs.length = 1) :
    ofWord? cs = some (int (Nat.ofDigitChars 10 cs 0)) := by
  have hspan := span_isDigit hdigits
  cases cs with
  | nil => exact absurd rfl hne
  | cons c cs =>
    have hname : ∀ d ∈ ['n', 't', 'f', '-'], c ≠ d := by
      have hletters : ['n', 't', 'f', '-'].any Char.isDigit = false := rfl
      rintro d hd rfl
      exact List.any_eq_false.1 hletters c hd (hdigits c (.head _))
    simp only [List.forall_mem_cons] at hname
    unfold ofWord?
    rw [if_neg (by simp [hname]), if_neg (by simp [hname]), if_neg (by simp [hname])]
    split
    next negative body hsign =>
      split at hsign
      next h => exact absurd (List.cons.inj h).1 hname.2.2.2.1
      next =>
        cases hsign
        have hlead : ¬ (decide (c :: cs = []) ||
            decide ((c :: cs).head? = some '0') && decide ((c :: cs).length ≠ 1)) = true := by
          simpa using hzero
        simp only [hspan]
        rw [if_neg hlead]
        rfl

theorem ofWord?_of_minus {cs : List Char} (hne : cs ≠ []) (hdigits : ∀ c ∈ cs, c.isDigit)
    (hzero : cs.head? ≠ some '0') (hpos : Nat.ofDigitChars 10 cs 0 ≠ 0) :
    ofWord? ('-' :: cs) = some (int (-(Nat.ofDigitChars 10 cs 0))) := by
  have hspan := span_isDigit hdigits
  simp only [ofWord?, hspan]
  simp [hne, hzero, hpos]

theorem ofWord?_toString (n : Int) : ofWord? (toString n).toList = some (int n) := by
  cases n with
  | ofNat m =>
    have hzero : (Nat.toDigits 10 m).head? = some '0' → (Nat.toDigits 10 m).length = 1 := by
      intro h
      cases m with
      | zero => rfl
      | succ m => exact absurd h (head?_toDigits_ne_zero m.succ_pos)
    rw [toList_toString_ofNat, ofWord?_of_digits Nat.toDigits_ne_nil (Numeral.isDigit_toDigits m)
      hzero, Nat.ofDigitChars_ten_toDigits]
    rfl
  | negSucc m =>
    have hpos : Nat.ofDigitChars 10 (Nat.toDigits 10 (m + 1)) 0 ≠ 0 := by
      rw [Nat.ofDigitChars_ten_toDigits]
      exact m.succ_ne_zero
    rw [toList_toString_negSucc, ofWord?_of_minus Nat.toDigits_ne_nil
      (Numeral.isDigit_toDigits (m + 1)) (head?_toDigits_ne_zero m.succ_pos) hpos,
      Nat.ofDigitChars_ten_toDigits]
    rfl

/-! Values. -/

theorem put_of_not_mem {fields : List (String × Json)} {key : String}
    (h : key ∉ fields.map Prod.fst) (v : Json) : put fields key v = fields ++ [(key, v)] := by
  induction fields with
  | nil => rfl
  | cons f rest ih =>
    rw [List.map_cons, List.mem_cons, not_or] at h
    rw [put, if_neg (Ne.symm h.1), ih h.2]
    rfl

theorem put_of_nodup {before rest : List (String × Json)} {key : String} {v : Json}
    (h : ((before ++ (key, v) :: rest).map Prod.fst).Nodup) :
    put before key v = before ++ [(key, v)] := by
  rw [List.map_append, List.map_cons] at h
  apply put_of_not_mem
  intro hmem
  exact (List.nodup_append.1 h).2.2 key hmem key (.head _) rfl

/-- A value may begin just inside an array as it may begin where a value has to stand. -/
theorem foldlM_valueOrClose (v : Json) (ts : List Token) (stack : List Frame) :
    (v.tokens ++ ts).foldlM Place.advance (.valueOrClose stack) =
      (v.tokens ++ ts).foldlM Place.advance (.value (.items [] :: stack)) := by
  cases v with
  | null => rfl
  | bool b => cases b <;> rfl
  | int n => rfl
  | decimal s => rfl
  | str s => rfl
  | arr items => cases items <;> rfl
  | obj fields => cases fields <;> rfl

/-- Taken from any place where a value may stand, these tokens lead to the place after it. -/
def Writes (v : Json) (ts : List Token) : Prop :=
  ∀ stack, ts.foldlM Place.advance (.value stack) = some (.after v stack)

/-- The rest of an array, after an item. The items before that one are kept last first. -/
theorem foldlM_items {rest : List Json} (h : ∀ v ∈ rest, v.Writes v.tokens) (v : Json)
    (before : List Json) (stack : List Frame) :
    (itemTokens rest ++ [Token.closeArray]).foldlM Place.advance
        (.after v (.items before :: stack)) =
      some (.after (arr ((v :: before).reverse ++ rest)) stack) := by
  induction rest generalizing v before with
  | nil =>
    rw [itemTokens, List.append_nil]
    rfl
  | cons w rest ih =>
    obtain ⟨hw, hrest⟩ := List.forall_mem_cons.1 h
    have hcomma : Place.advance (.after v (.items before :: stack)) .comma =
        some (.value (.items (v :: before) :: stack)) := rfl
    rw [itemTokens, List.cons_append, foldlM_cons_of_eq_some hcomma, List.append_assoc,
      foldlM_append_of_eq_some (hw _), ih hrest, List.reverse_cons, List.append_assoc]
    rfl

theorem foldlM_fields {rest : List (String × Json)} (h : ∀ f ∈ rest, f.2.Writes f.2.tokens)
    (key : String) (v : Json) (before : List (String × Json)) (stack : List Frame)
    (hkeys : ((before ++ (key, v) :: rest).map Prod.fst).Nodup) :
    (fieldTokens rest ++ [Token.closeObject]).foldlM Place.advance
        (.after v (.fields before key :: stack)) =
      some (.after (obj (before ++ (key, v) :: rest)) stack) := by
  induction rest generalizing key v before with
  | nil =>
    rw [← put_of_nodup hkeys]
    rfl
  | cons f rest ih =>
    obtain ⟨hf, hrest⟩ := List.forall_mem_cons.1 h
    have hname : [Token.comma, .str f.1, .colon].foldlM Place.advance
        (.after v (.fields before key :: stack)) =
        some (.value (.fields (put before key v) f.1 :: stack)) := rfl
    have htokens : fieldTokens (f :: rest) ++ [Token.closeObject] =
        [Token.comma, .str f.1, .colon] ++
          (f.2.tokens ++ (fieldTokens rest ++ [Token.closeObject])) := by
      simp [fieldTokens]
    have hsplit : before ++ (key, v) :: f :: rest = before ++ [(key, v)] ++ (f.1, f.2) :: rest :=
      List.append_cons before (key, v) (f :: rest)
    rw [htokens, foldlM_append_of_eq_some hname, foldlM_append_of_eq_some (hf _),
      put_of_nodup hkeys, hsplit]
    exact ih hrest f.1 f.2 (before ++ [(key, v)]) (hsplit ▸ hkeys)

theorem Exact.writes_tokens {v : Json} (h : Exact v) : v.Writes v.tokens := by
  intro stack
  induction h generalizing stack with
  | null => rfl
  | bool b => cases b <;> rfl
  | int n =>
    have hbegin : Place.advance (.value stack) (.word (toString n).toList) =
        some (.after (.int n) stack) :=
      congrArg (Option.map (Place.after · stack)) (ofWord?_toString n)
    rw [tokens, foldlM_cons_of_eq_some hbegin]
    rfl
  | str s => rfl
  | @arr items _ ih =>
    cases items with
    | nil => rfl
    | cons v rest =>
      obtain ⟨hv, hrest⟩ := List.forall_mem_cons.1 ih
      have hopen : Place.advance (.value stack) .openArray = some (.valueOrClose stack) := rfl
      rw [tokens, foldlM_cons_of_eq_some hopen, foldlM_valueOrClose,
        foldlM_append_of_eq_some (hv _), foldlM_items hrest]
      rfl
  | @obj fields hkeys _ ih =>
    cases fields with
    | nil => rfl
    | cons f rest =>
      obtain ⟨hf, hrest⟩ := List.forall_mem_cons.1 ih
      have hname : [Token.openObject, .str f.1, .colon].foldlM Place.advance (.value stack) =
          some (.value (.fields [] f.1 :: stack)) := rfl
      have htokens : (Json.obj (f :: rest)).tokens = [Token.openObject, .str f.1, .colon] ++
          (f.2.tokens ++ (fieldTokens rest ++ [Token.closeObject])) := by
        rw [tokens]
        rfl
      rw [htokens, foldlM_append_of_eq_some hname, foldlM_append_of_eq_some (hf _),
        foldlM_fields hrest f.1 f.2 [] stack hkeys]
      rfl

theorem Exact.parse?_of_reads {v : Json} (h : Exact v) {text : String}
    (ht : Reads text.toList v.tokens) : parse? text = some v := by
  rw [parse?, ht.scan_eq, Option.bind_eq_bind, Option.bind_some, ofTokens?, h.writes_tokens []]
  rfl

theorem Exact.parse?_prettyLine {v : Json} (h : Exact v) : parse? (v.pretty ++ "\n") = some v := by
  apply h.parse?_of_reads
  have hfeed : Continues ['\n'] [] := by
    apply Reads.continues
    · exact reads_nil.blank fun _ => rfl
    · decide
  have := (h.reads_prettyAt 0).append hfeed
  rw [List.append_nil] at this
  rw [String.toList_append]
  exact this

end LS8.Json
