import LS8.Json.Token
import LS8.Proofs.Characters
/-! JSON text as the scanner reads it. `Reads cs ts` says that a text is read as these tokens from
any place between tokens. A number or a name ends only where the next character shows it, so what
comes after one has to begin otherwise (`Continues`). What the printer writes for a value is read as
the tokens of the value (`Exact.reads_prettyAt`). -/

namespace LS8.Json

/-! Reading on from where a first part leads. -/

section

variable {α β : Type} {f : β → α → Option β} {b b' : β}

theorem foldlM_append_of_eq_some {as : List α} (h : as.foldlM f b = some b') (later : List α) :
    (as ++ later).foldlM f b = later.foldlM f b' := by
  rw [List.foldlM_append, h]
  rfl

theorem foldlM_cons_of_eq_some {a : α} (h : f b a = some b') (later : List α) :
    (a :: later).foldlM f b = later.foldlM f b' := by
  rw [List.foldlM_cons, h]
  rfl

end

namespace Token

def Scanner.finish? (s : Scanner) : Option (List Token) :=
  match s.mode with
  | .between => some s.tokens
  | .word read => some (word read.reverse :: s.tokens)
  | _ => none

/-- The text `cs` is read as the tokens `ts`. -/
def Reads (cs : List Char) (ts : List Token) : Prop :=
  ∀ before, ∃ s, cs.foldlM advance ⟨before, .between⟩ = some s ∧
    s.finish? = some (ts.reverse ++ before)

/-- The same of a text that may stand right after a number or a name. -/
structure Continues (cs : List Char) (ts : List Token) : Prop where
  reads : Reads cs ts
  head : ∀ c ∈ cs.head?, ¬ isWordChar c

variable {cs ds : List Char} {ts us : List Token}

theorem Reads.scan_eq (h : Reads cs ts) : scan cs = some ts := by
  obtain ⟨⟨tokens, mode⟩, hs, hfinish⟩ := h []
  rw [List.append_nil] at hfinish
  rw [scan, hs, Option.bind_eq_bind, Option.bind_some]
  cases mode with
  | between =>
    have hread : tokens = ts.reverse := Option.some.inj hfinish
    rw [hread, List.reverse_reverse]
  | word read =>
    have hread : word read.reverse :: tokens = ts.reverse := Option.some.inj hfinish
    change some (word read.reverse :: tokens).reverse = some ts
    rw [hread, List.reverse_reverse]
  | _ => cases hfinish

theorem advance_of_finish? {s : Scanner} {full : List Token} (h : s.finish? = some full) {c : Char}
    (hc : ¬ isWordChar c) : advance s c = advance ⟨full, .between⟩ c := by
  obtain ⟨tokens, mode⟩ := s
  cases mode with
  | between =>
    cases h
    rfl
  | word read =>
    cases h
    exact if_neg hc
  | _ => cases h

theorem reads_nil : Reads [] [] :=
  fun _ => ⟨_, rfl, rfl⟩

/-- A character that is a token. -/
theorem Reads.mark {c : Char} {t : Token}
    (hc : ∀ before, begin before c = some ⟨t :: before, .between⟩)
    (h : Reads cs ts) : Reads (c :: cs) (t :: ts) := by
  intro before
  obtain ⟨s, hs, hfinish⟩ := h (t :: before)
  refine ⟨s, ?_, ?_⟩
  · rw [foldlM_cons_of_eq_some (hc before)]
    exact hs
  · rw [hfinish, List.reverse_cons, List.append_assoc]
    rfl

/-- A character between tokens. -/
theorem Reads.blank {c : Char} (hc : ∀ before, begin before c = some ⟨before, .between⟩)
    (h : Reads cs ts) : Reads (c :: cs) ts := by
  intro before
  obtain ⟨s, hs, hfinish⟩ := h before
  refine ⟨s, ?_, hfinish⟩
  rw [foldlM_cons_of_eq_some (hc before)]
  exact hs

theorem Reads.blanks (h : Reads cs ts) (n : Nat) : Reads (List.replicate n ' ' ++ cs) ts := by
  induction n with
  | zero => exact h
  | succ n ih => exact ih.blank fun _ => rfl

theorem Reads.append (h : Reads cs ts) (h' : Continues ds us) : Reads (cs ++ ds) (ts ++ us) := by
  intro before
  obtain ⟨s, hs, hfinish⟩ := h before
  obtain ⟨s', hs', hfinish'⟩ := h'.reads (ts.reverse ++ before)
  rw [foldlM_append_of_eq_some hs, List.reverse_append, List.append_assoc]
  cases ds with
  | nil =>
    cases hs'
    exact ⟨s, rfl, hfinish.trans hfinish'⟩
  | cons d ds =>
    refine ⟨s', ?_, hfinish'⟩
    rw [List.foldlM_cons, ← advance_of_finish? hfinish (h'.head d rfl), ← List.foldlM_cons] at hs'
    exact hs'

theorem Reads.continues {c : Char} (h : Reads (c :: cs) ts) (hc : ¬ isWordChar c) :
    Continues (c :: cs) ts := by
  refine ⟨h, ?_⟩
  intro d hd
  cases hd
  exact hc

theorem Continues.append (h : Continues cs ts) (h' : Continues ds us) :
    Continues (cs ++ ds) (ts ++ us) := by
  refine ⟨h.reads.append h', ?_⟩
  cases cs with
  | nil => exact h'.head
  | cons c cs => exact h.head

/-! Numbers and names. -/

def marks : List Char :=
  [' ', '\n', '\r', '\t', '\x7b', '\x7d', '[', ']', ':', ',', '"']

theorem begin_of_isWordChar {c : Char} (hc : isWordChar c) (before : List Token) :
    begin before c = some ⟨before, .word [c]⟩ := by
  have hmarks : marks.any isWordChar = false := rfl
  have hne : ∀ d ∈ marks, c ≠ d := by
    rintro d hd rfl
    exact List.any_eq_false.1 hmarks c hd hc
  simp only [marks, List.forall_mem_cons] at hne
  simp [begin, hne, hc]

theorem foldlM_word (before : List Token) {cs : List Char} (h : ∀ c ∈ cs, isWordChar c)
    (read : List Char) : cs.foldlM advance ⟨before, .word read⟩ =
      some ⟨before, .word (cs.reverse ++ read)⟩ := by
  induction cs generalizing read with
  | nil => rfl
  | cons c cs ih =>
    obtain ⟨hc, hcs⟩ := List.forall_mem_cons.1 h
    have hstep : advance ⟨before, .word read⟩ c = some ⟨before, .word (c :: read)⟩ := if_pos hc
    rw [foldlM_cons_of_eq_some hstep, ih hcs, List.reverse_cons, List.append_assoc]
    rfl

theorem reads_word (hne : cs ≠ []) (h : ∀ c ∈ cs, isWordChar c) : Reads cs [.word cs] := by
  cases cs with
  | nil => exact absurd rfl hne
  | cons c cs =>
    obtain ⟨hc, hcs⟩ := List.forall_mem_cons.1 h
    intro before
    refine ⟨⟨before, .word (cs.reverse ++ [c])⟩, ?_, ?_⟩
    · rw [foldlM_cons_of_eq_some (begin_of_isWordChar hc before)]
      exact foldlM_word before hcs [c]
    · simp [Scanner.finish?]

/-! Strings. -/

theorem hexValue?_digitChar {d : Nat} (h : d < 16) : hexValue? (Nat.digitChar d) = some d := by
  have hdigit : ∀ d < 16, hexValue? (Nat.digitChar d) = some d := by decide
  exact hdigit d h

theorem advance_unit (before : List Token) (read : List Char) (left value : Nat) {d : Nat}
    (h : d < 16) : advance ⟨before, .unit read none (left + 2) value⟩ (Nat.digitChar d) =
      some ⟨before, .unit read none (left + 1) (value * 16 + d)⟩ := by
  simp [advance, hexValue?_digitChar h]

theorem advance_unit_last (before : List Token) (read : List Char) (value : Nat) {d : Nat}
    (h : d < 16) (hvalue : value * 16 + d < 0xD800) :
    advance ⟨before, .unit read none 1 value⟩ (Nat.digitChar d) =
      some ⟨before, .text (Char.ofNat (value * 16 + d) :: read)⟩ := by
  have hhigh : ¬ (0xD800 ≤ value * 16 + d ∧ value * 16 + d < 0xDC00) := by omega
  have hlow : ¬ (0xDC00 ≤ value * 16 + d ∧ value * 16 + d < 0xE000) := by omega
  have hclose : closeUnit read none (value * 16 + d) =
      some (.text (Char.ofNat (value * 16 + d) :: read)) := (if_neg hhigh).trans (if_neg hlow)
  simp [advance, hexValue?_digitChar h, hclose]

/-- A control character is written by its number in four hexadecimal digits. -/
theorem foldlM_unit (before : List Token) (read : List Char) {c : Char} (h : c.toNat < 0x20) :
    (['\\', 'u', '0', '0'] ++ [Nat.digitChar (c.toNat / 16), Nat.digitChar (c.toNat % 16)]).foldlM
      advance ⟨before, .text read⟩ = some ⟨before, .text (c :: read)⟩ := by
  have hhigh : c.toNat / 16 < 16 := by omega
  have hlow : c.toNat % 16 < 16 := by omega
  have hopen : ['\\', 'u', '0', '0'].foldlM advance ⟨before, .text read⟩ =
      some ⟨before, .unit read none 2 0⟩ := rfl
  have hvalue : (0 * 16 + c.toNat / 16) * 16 + c.toNat % 16 = c.toNat := by omega
  have hlast := advance_unit_last before read (0 * 16 + c.toNat / 16) hlow (by omega)
  rw [hvalue, Char.ofNat_toNat] at hlast
  rw [foldlM_append_of_eq_some hopen, foldlM_cons_of_eq_some (advance_unit before read 0 0 hhigh),
    foldlM_cons_of_eq_some hlast]
  rfl

theorem foldlM_escape (before : List Token) (read : List Char) (c : Char) :
    (escape c).toList.foldlM advance ⟨before, .text read⟩ = some ⟨before, .text (c :: read)⟩ := by
  unfold escape
  iterate 7
    split
    next h =>
      subst h
      rfl
  split
  next h =>
    rw [String.toList_append, String.toList_ofList, String.toList_ofList]
    exact foldlM_unit before read h
  next hquote hbackslash _ _ _ _ _ hcontrol =>
    have hstep : advance ⟨before, .text read⟩ c = some ⟨before, .text (c :: read)⟩ := by
      simp only [advance, if_neg hquote, if_neg hbackslash, if_neg hcontrol]
    rw [Char.toString_eq_singleton, String.toList_singleton, foldlM_cons_of_eq_some hstep]
    rfl

theorem toList_quoted (s : String) :
    (quoted s).toList = '"' :: (s.toList.flatMap fun c => (escape c).toList) ++ ['"'] := by
  have hfoldl (cs : List Char) (out : String) :
      (cs.foldl (fun out c => out ++ escape c) out).toList =
        out.toList ++ cs.flatMap fun c => (escape c).toList := by
    induction cs generalizing out with
    | nil => simp
    | cons c cs ih => rw [List.foldl_cons, ih, String.toList_append, List.append_assoc,
        List.flatMap_cons]
  rw [quoted, String.toList_append, hfoldl]
  rfl

theorem foldlM_escapes (before : List Token) (cs read : List Char) :
    (cs.flatMap fun c => (escape c).toList).foldlM advance ⟨before, .text read⟩ =
      some ⟨before, .text (cs.reverse ++ read)⟩ := by
  induction cs generalizing read with
  | nil => rfl
  | cons c cs ih =>
    rw [List.flatMap_cons, foldlM_append_of_eq_some (foldlM_escape before read c), ih,
      List.reverse_cons, List.append_assoc]
    rfl

theorem reads_quoted (s : String) : Reads (quoted s).toList [.str s] := by
  intro before
  refine ⟨⟨.str s :: before, .between⟩, ?_, rfl⟩
  have hopen : advance ⟨before, .between⟩ '"' = some ⟨before, .text []⟩ := rfl
  have htext := foldlM_escapes before s.toList []
  have hclose : advance ⟨before, .text s.toList.reverse⟩ '"' =
      some ⟨.str (.ofList s.toList.reverse.reverse) :: before, .between⟩ := rfl
  rw [List.append_nil] at htext
  rw [List.reverse_reverse, String.ofList_toList] at hclose
  rw [toList_quoted, List.cons_append, foldlM_cons_of_eq_some hopen,
    foldlM_append_of_eq_some htext, foldlM_cons_of_eq_some hclose]
  rfl

end Token

mutual

def tokens : Json → List Token
  | null => [.word ['n', 'u', 'l', 'l']]
  | bool true => [.word ['t', 'r', 'u', 'e']]
  | bool false => [.word ['f', 'a', 'l', 's', 'e']]
  | int n => [.word (toString n).toList]
  | decimal s => [.word s.toList]
  | str s => [.str s]
  | arr [] => [.openArray, .closeArray]
  | arr (v :: rest) => .openArray :: (v.tokens ++ (itemTokens rest ++ [.closeArray]))
  | obj [] => [.openObject, .closeObject]
  | obj ((k, v) :: rest) =>
    .openObject :: .str k :: .colon :: (v.tokens ++ (fieldTokens rest ++ [.closeObject]))

def itemTokens : List Json → List Token
  | [] => []
  | v :: rest => .comma :: (v.tokens ++ itemTokens rest)

def fieldTokens : List (String × Json) → List Token
  | [] => []
  | (k, v) :: rest => .comma :: .str k :: .colon :: (v.tokens ++ fieldTokens rest)

end

/-- A value that text keeps: its numbers are integers and its objects name no field twice. -/
inductive Exact : Json → Prop
  | null : Exact null
  | bool (b : Bool) : Exact (bool b)
  | int (n : Int) : Exact (int n)
  | str (s : String) : Exact (str s)
  | arr {items : List Json} : (∀ v ∈ items, Exact v) → Exact (arr items)
  | obj {fields : List (String × Json)} :
      (fields.map Prod.fst).Nodup → (∀ f ∈ fields, Exact f.2) → Exact (obj fields)

open Token

theorem toList_toString_ofNat (m : Nat) : (toString (Int.ofNat m)).toList = Nat.toDigits 10 m :=
  Nat.toList_repr

theorem toList_toString_negSucc (m : Nat) :
    (toString (Int.negSucc m)).toList = '-' :: Nat.toDigits 10 (m + 1) := by
  have htext : toString (Int.negSucc m) = "-" ++ Nat.repr (m + 1) := rfl
  rw [htext, String.toList_append, Nat.toList_repr]
  rfl

theorem isWordChar_toDigits (m : Nat) : ∀ c ∈ Nat.toDigits 10 m, isWordChar c := by
  intro c hc
  have hdigit := Numeral.isDigit_toDigits _ c hc
  simp [isWordChar, Char.isAlphanum, hdigit]

theorem reads_int (n : Int) : Reads (toString n).toList [.word (toString n).toList] := by
  cases n with
  | ofNat m =>
    rw [toList_toString_ofNat]
    exact reads_word Nat.toDigits_ne_nil (isWordChar_toDigits m)
  | negSucc m =>
    rw [toList_toString_negSucc]
    exact reads_word (List.cons_ne_nil _ _)
      (List.forall_mem_cons.2 ⟨by decide, isWordChar_toDigits (m + 1)⟩)

theorem toList_indent (level : Nat) : (indent level).toList = List.replicate (2 * level) ' ' :=
  Text.toList_pushn ' ' (2 * level)

theorem continues_close {c : Char} {t : Token} (level : Nat)
    (hc : ∀ before, begin before c = some ⟨t :: before, .between⟩) :
    Continues ('\n' :: (List.replicate (2 * level) ' ' ++ [c])) [t] := by
  apply Reads.continues
  · exact ((reads_nil.mark hc).blanks _).blank fun _ => rfl
  · decide

theorem continues_prettyItems (level : Nat) {items : List Json}
    (h : ∀ v ∈ items, Reads (v.prettyAt level).toList v.tokens) :
    Continues (prettyItems level items).toList (itemTokens items) := by
  induction items with
  | nil =>
    rw [prettyItems, itemTokens]
    exact ⟨reads_nil, nofun⟩
  | cons v rest ih =>
    obtain ⟨hv, hrest⟩ := List.forall_mem_cons.1 h
    have htext : (prettyItems level (v :: rest)).toList = ',' :: '\n' ::
        (List.replicate (2 * level) ' ' ++
          ((v.prettyAt level).toList ++ (prettyItems level rest).toList)) := by
      simp [prettyItems, toList_indent]
    rw [htext, itemTokens]
    apply Reads.continues
    · exact (((hv.append (ih hrest)).blanks _).blank fun _ => rfl).mark fun _ => rfl
    · decide

/-- A field: its name, a colon and its value, and what follows that. -/
theorem reads_field (key : String) {cs ds : List Char} {ts us : List Token} (hv : Reads cs ts)
    (hrest : Continues ds us) :
    Reads ((quoted key).toList ++ ':' :: ' ' :: (cs ++ ds)) (.str key :: .colon :: (ts ++ us)) := by
  have hcolon : Continues (':' :: ' ' :: (cs ++ ds)) (.colon :: (ts ++ us)) := by
    apply Reads.continues
    · exact ((hv.append hrest).blank fun _ => rfl).mark fun _ => rfl
    · decide
  exact (reads_quoted key).append hcolon

theorem continues_prettyFields (level : Nat) {fields : List (String × Json)}
    (h : ∀ f ∈ fields, Reads (f.2.prettyAt level).toList f.2.tokens) :
    Continues (prettyFields level fields).toList (fieldTokens fields) := by
  induction fields with
  | nil =>
    rw [prettyFields, fieldTokens]
    exact ⟨reads_nil, nofun⟩
  | cons f rest ih =>
    obtain ⟨hv, hrest⟩ := List.forall_mem_cons.1 h
    have htext : (prettyFields level (f :: rest)).toList = ',' :: '\n' ::
        (List.replicate (2 * level) ' ' ++ ((quoted f.1).toList ++ ':' :: ' ' ::
          ((f.2.prettyAt level).toList ++ (prettyFields level rest).toList))) := by
      simp [prettyFields, toList_indent]
    rw [htext, fieldTokens]
    apply Reads.continues
    · exact (((reads_field f.1 hv (ih hrest)).blanks _).blank fun _ => rfl).mark fun _ => rfl
    · decide

theorem Exact.reads_prettyAt {v : Json} (h : Exact v) (level : Nat) :
    Reads (v.prettyAt level).toList v.tokens := by
  induction h generalizing level with
  | null =>
    rw [prettyAt, tokens]
    exact reads_word (by decide) (List.all_eq_true.1 rfl)
  | bool b =>
    cases b with
    | false =>
      rw [prettyAt, tokens]
      exact reads_word (by decide) (List.all_eq_true.1 rfl)
    | true =>
      rw [prettyAt, tokens]
      exact reads_word (by decide) (List.all_eq_true.1 rfl)
  | int n =>
    rw [prettyAt, tokens]
    exact reads_int n
  | str s =>
    rw [prettyAt, tokens]
    exact reads_quoted s
  | @arr items hitems ih =>
    cases items with
    | nil =>
      rw [prettyAt, tokens]
      exact (reads_nil.mark fun _ => rfl).mark fun _ => rfl
    | cons v rest =>
      obtain ⟨hv, hrest⟩ := List.forall_mem_cons.1 ih
      have htext : (prettyAt level (.arr (v :: rest))).toList = '[' :: '\n' ::
          (List.replicate (2 * (level + 1)) ' ' ++ ((v.prettyAt (level + 1)).toList ++
            ((prettyItems (level + 1) rest).toList ++
              '\n' :: (List.replicate (2 * level) ' ' ++ [']'])))) := by
        simp [prettyAt, toList_indent]
      rw [htext, tokens]
      have hitems := continues_prettyItems (level + 1) fun v hv => hrest v hv (level + 1)
      have hclose := continues_close level (c := ']') (t := .closeArray) fun _ => rfl
      exact ((((hv (level + 1)).append (hitems.append hclose)).blanks _).blank
        fun _ => rfl).mark fun _ => rfl
  | @obj fields _ hfields ih =>
    cases fields with
    | nil =>
      rw [prettyAt, tokens]
      exact (reads_nil.mark fun _ => rfl).mark fun _ => rfl
    | cons f rest =>
      obtain ⟨hv, hrest⟩ := List.forall_mem_cons.1 ih
      have htext : (prettyAt level (.obj (f :: rest))).toList = '\x7b' :: '\n' ::
          (List.replicate (2 * (level + 1)) ' ' ++ ((quoted f.1).toList ++ ':' :: ' ' ::
            ((f.2.prettyAt (level + 1)).toList ++ ((prettyFields (level + 1) rest).toList ++
              '\n' :: (List.replicate (2 * level) ' ' ++ ['\x7d']))))) := by
        simp [prettyAt, toList_indent]
      rw [htext, tokens]
      have hfields := continues_prettyFields (level + 1) fun f hf => hrest f hf (level + 1)
      have hclose := continues_close level (c := '\x7d') (t := .closeObject) fun _ => rfl
      exact (((reads_field f.1 (hv (level + 1)) (hfields.append hclose)).blanks _).blank
        fun _ => rfl).mark fun _ => rfl

end LS8.Json
