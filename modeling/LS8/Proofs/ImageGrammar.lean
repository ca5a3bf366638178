import LS8.Image
import LS8.Proofs.LineGrammar
import Mathlib.Data.Nat.Digits.Defs
/-! Program images by their grammar. A file is read as an image exactly if each of its lines says a
code that is empty or eight binary digits and there are no more bytes than cells. The image then has
the bytes that the codes write, each with the number of its line (`Holds`); else the fault is that
of the first line that is not sound, and the size is a fault only if every line is (`FaultOf`). The
lemmas number the lines from any number on, so that they hold of a part of a file as well. -/

namespace LS8.Image

def IsOctet (c : List Char) : Prop :=
  c.length = 8 ∧ ∀ x ∈ c, x = '0' ∨ x = '1'

def binaryValue (c : List Char) : Nat :=
  Nat.ofDigits 2 (c.reverse.map fun x => if x = '1' then 1 else 0)

/-- A line in order: it is text, and its code is empty or a byte. -/
def Sound (r : Option (List Char)) : Prop :=
  ∃ c, r = some c ∧ (c = [] ∨ IsOctet c)

def BadLine (r : Option (List Char)) (n : Nat) (f : Fault) : Prop :=
  (r = none ∧ f = .notUtf8) ∨
    ∃ c, r = some c ∧ c ≠ [] ∧ ¬ IsOctet c ∧ f = .format n (String.ofList c)

/-- The codes that are not empty, each with the number of its line. -/
def written (first : Nat) (cs : List (Option (List Char))) : List (List Char × Nat) :=
  (cs.zipIdx first).filterMap fun line => (line.1.filter (!·.isEmpty)).map (·, line.2)

/-- The image that sound lines write. -/
structure Holds (cs : List (Option (List Char))) (i : Image) : Prop where
  bytes : i.bytes.map UInt8.toNat = (written 1 cs).map fun w => binaryValue w.1
  sourceLines : i.sourceLines = (written 1 cs).map Prod.snd
  increasing : i.sourceLines.Pairwise (· < ·)
  length : i.sourceLines.length = i.bytes.length
  lineOf : ∀ a : UInt8, i.lineOf? a =
    if h : a.toNat < i.bytes.length then some (i.sourceLines.get ⟨a.toNat, length ▸ h⟩) else none

inductive FaultOf (cs : List (Option (List Char))) : Fault → Prop
  | line {before after : List (Option (List Char))} {r : Option (List Char)} {f : Fault} :
      cs = before ++ r :: after → (∀ s ∈ before, Sound s) → BadLine r (1 + before.length) f →
      FaultOf cs f
  | size : (∀ r ∈ cs, Sound r) → 256 < (written 1 cs).length →
      FaultOf cs (.tooLarge (written 1 cs).length)

theorem ofBits_eq_binaryValue (c : List Char) : Numeral.ofBits c = binaryValue c := by
  unfold Numeral.ofBits
  induction c using List.reverseRecOn with
  | nil => rfl
  | append_singleton c x ih =>
    have hvalue : binaryValue (c ++ [x]) = (if x = '1' then 1 else 0) + 2 * binaryValue c := by
      rw [binaryValue, List.reverse_append, List.reverse_singleton, List.singleton_append,
        List.map_cons, Nat.ofDigits_cons]
      rfl
    rw [List.foldl_append, ih, hvalue, Nat.add_comm]
    rfl

theorem binaryValue_lt {c : List Char} (h : IsOctet c) : binaryValue c < 256 := by
  have hlt : binaryValue c < 2 ^ (c.reverse.map fun x => if x = '1' then 1 else 0).length := by
    apply Nat.ofDigits_lt_base_pow_length (by decide)
    intro d hd
    obtain ⟨x, -, rfl⟩ := List.mem_map.1 hd
    split <;> decide
  rwa [List.length_map, List.length_reverse, h.1] at hlt

theorem isOctet_iff {c : List Char} : IsOctet c ↔ c.length = 8 ∧ c.all Numeral.isBit := by
  simp [IsOctet, Numeral.isBit]

theorem ofBits?_of_isOctet {c : List Char} (h : IsOctet c) :
    ∃ b, Numeral.ofBits? c = some b ∧ b.toNat = binaryValue c := by
  refine ⟨_, Numeral.ofBits?_eq_some_iff.2 ⟨isOctet_iff.1 h, rfl⟩, ?_⟩
  rw [ofBits_eq_binaryValue, UInt8.toNat_ofNat']
  exact Nat.mod_eq_of_lt (binaryValue_lt h)

theorem ofBits?_eq_none {c : List Char} (h : ¬ IsOctet c) : Numeral.ofBits? c = none := by
  rw [isOctet_iff, ← Numeral.ofBits?_isSome_iff] at h
  exact Option.not_isSome_iff_eq_none.1 h

def Line.ofSaying : Option (List Char) → Line
  | none => notUtf8
  | some [] => blank
  | some c =>
    match Numeral.ofBits? c with
    | some b => byte b
    | none => malformed (String.ofList c)

theorem Line.ofBytes_eq (line : List UInt8) : ofBytes line = ofSaying (saying line) := by
  unfold ofBytes saying
  cases Text.ofUtf8? line with
  | none => rfl
  | some s =>
    simp only [Option.map_some, ofText]
    cases code s.toList <;> rfl

theorem numbered_eq (file : List UInt8) :
    numbered file = (((Text.lines file).map saying).map Line.ofSaying).zipIdx 1 := by
  rw [numbered, List.map_map]
  congr 1
  exact List.map_congr_left fun line _ => Line.ofBytes_eq line

theorem Line.ofSaying_of_isOctet {c : List Char} (h : IsOctet c) :
    ∃ b, ofSaying (some c) = byte b ∧ b.toNat = binaryValue c := by
  obtain ⟨b, hb, hvalue⟩ := ofBits?_of_isOctet h
  refine ⟨b, ?_, hvalue⟩
  cases c with
  | nil => simp [IsOctet] at h
  | cons x c => simp only [ofSaying, hb]

theorem Line.ofSaying_of_not_isOctet {c : List Char} (hne : c ≠ []) (h : ¬ IsOctet c) :
    ofSaying (some c) = malformed (String.ofList c) := by
  cases c with
  | nil => exact absurd rfl hne
  | cons x c => simp only [ofSaying, ofBits?_eq_none h]

theorem BadLine.lineFault? {r : Option (List Char)} {n : Nat} {f : Fault} (h : BadLine r n f) :
    lineFault? (.ofSaying r, n) = some f := by
  rcases h with ⟨rfl, rfl⟩ | ⟨c, rfl, hne, hc, rfl⟩
  · rfl
  · rw [Line.ofSaying_of_not_isOctet hne hc]
    rfl

theorem Sound.lineFault? {r : Option (List Char)} (h : Sound r) (n : Nat) :
    lineFault? (.ofSaying r, n) = none := by
  rcases h with ⟨c, rfl, rfl | hc⟩
  · rfl
  · obtain ⟨b, hb, -⟩ := Line.ofSaying_of_isOctet hc
    rw [hb]
    rfl

theorem sound_or_badLine (r : Option (List Char)) (n : Nat) : Sound r ∨ ∃ f, BadLine r n f := by
  cases r with
  | none => exact .inr ⟨_, .inl ⟨rfl, rfl⟩⟩
  | some c =>
    by_cases hne : c = []
    · exact .inl ⟨c, rfl, .inl hne⟩
    · by_cases hc : IsOctet c
      · exact .inl ⟨c, rfl, .inr hc⟩
      · exact .inr ⟨_, .inr ⟨c, rfl, hne, hc, rfl⟩⟩

theorem BadLine.not_sound {r : Option (List Char)} {n : Nat} {f : Fault} (h : BadLine r n f) :
    ¬ Sound r := by
  intro hs
  have := h.lineFault?
  rw [hs.lineFault?] at this
  cases this

variable {cs : List (Option (List Char))}

def firstFault? (first : Nat) (cs : List (Option (List Char))) : Option Fault :=
  ((cs.map Line.ofSaying).zipIdx first).findSome? lineFault?

theorem firstFault?_of_sound {r : Option (List Char)} (h : Sound r) (first : Nat) :
    firstFault? first (r :: cs) = firstFault? (first + 1) cs := by
  rw [firstFault?, List.map_cons, List.zipIdx_cons, List.findSome?_cons, h.lineFault?]
  rfl

theorem firstFault?_of_badLine {r : Option (List Char)} {first : Nat} {f : Fault}
    (h : BadLine r first f) : firstFault? first (r :: cs) = some f := by
  rw [firstFault?, List.map_cons, List.zipIdx_cons, List.findSome?_cons, h.lineFault?]

theorem firstFault?_eq_none_iff {first : Nat} :
    firstFault? first cs = none ↔ ∀ r ∈ cs, Sound r := by
  induction cs generalizing first with
  | nil => simp [firstFault?]
  | cons r cs ih =>
    rw [List.forall_mem_cons]
    rcases sound_or_badLine r first with hr | ⟨f, hr⟩
    · rw [firstFault?_of_sound hr, ih, and_iff_right hr]
    · rw [firstFault?_of_badLine hr]
      exact ⟨fun h => (nomatch h), fun h => absurd h.1 hr.not_sound⟩

theorem firstFault?_eq_some_iff {first : Nat} {f : Fault} :
    firstFault? first cs = some f ↔ ∃ before r after, cs = before ++ r :: after ∧
      (∀ s ∈ before, Sound s) ∧ BadLine r (first + before.length) f := by
  constructor
  · intro h
    induction cs generalizing first with
    | nil => cases h
    | cons r cs ih =>
      rcases sound_or_badLine r first with hr | ⟨g, hr⟩
      · rw [firstFault?_of_sound hr] at h
        obtain ⟨before, s, after, rfl, hbefore, hs⟩ := ih h
        refine ⟨r :: before, s, after, rfl, List.forall_mem_cons.2 ⟨hr, hbefore⟩, ?_⟩
        rwa [List.length_cons, Nat.add_comm before.length, ← Nat.add_assoc]
      · rw [firstFault?_of_badLine hr] at h
        cases h
        exact ⟨[], r, cs, rfl, by simp, hr⟩
  · rintro ⟨before, r, after, rfl, hbefore, hr⟩
    induction before generalizing first with
    | nil => exact firstFault?_of_badLine hr
    | cons s before ih =>
      rw [List.forall_mem_cons] at hbefore
      rw [List.cons_append, firstFault?_of_sound hbefore.1]
      apply ih hbefore.2
      rwa [List.length_cons, Nat.add_comm before.length, ← Nat.add_assoc] at hr

def cellsOf (first : Nat) (cs : List (Option (List Char))) : List Cell :=
  ((cs.map Line.ofSaying).zipIdx first).filterMap lineCell?

theorem written_cons (r : Option (List Char)) (first : Nat) : written first (r :: cs) =
    ((r.filter (!·.isEmpty)).map (·, first)).toList ++ written (first + 1) cs := by
  rw [written, List.zipIdx_cons, List.filterMap_cons]
  cases r.filter (!·.isEmpty) <;> rfl

theorem written_cons_octet {c : List Char} (h : IsOctet c) (first : Nat) :
    written first (some c :: cs) = (c, first) :: written (first + 1) cs := by
  have hne : (!c.isEmpty) = true := by
    cases c with
    | nil => simp [IsOctet] at h
    | cons => rfl
  rw [written_cons, Option.filter_some, if_pos hne]
  rfl

theorem map_cellsOf (first : Nat) (h : ∀ r ∈ cs, Sound r) :
    (cellsOf first cs).map (fun c => (c.byte.toNat, c.line)) =
      (written first cs).map fun w => (binaryValue w.1, w.2) := by
  induction cs generalizing first with
  | nil => rfl
  | cons r cs ih =>
    rw [List.forall_mem_cons] at h
    have ih := ih (first + 1) h.2
    obtain ⟨c, rfl, rfl | hc⟩ := h.1
    · exact ih
    · obtain ⟨b, hb, hvalue⟩ := Line.ofSaying_of_isOctet hc
      have hcell : cellsOf first (some c :: cs) = ⟨b, first⟩ :: cellsOf (first + 1) cs := by
        rw [cellsOf, List.map_cons, hb]
        rfl
      rw [hcell, written_cons_octet hc, List.map_cons, List.map_cons, ih, hvalue]

theorem lines_written_sublist (first : Nat) (cs : List (Option (List Char))) :
    ((written first cs).map Prod.snd).Sublist (List.range' first cs.length) := by
  induction cs generalizing first with
  | nil => exact .slnil
  | cons r cs ih =>
    rw [written_cons, List.length_cons, List.range'_succ]
    cases r.filter (!·.isEmpty) with
    | none => exact (ih (first + 1)).cons first
    | some c => exact (ih (first + 1)).cons_cons first

theorem length_cellsOf {first : Nat} (h : ∀ r ∈ cs, Sound r) :
    (cellsOf first cs).length = (written first cs).length := by
  simpa using congrArg List.length (map_cellsOf first h)

theorem lineOf?_eq (i : Image) (a : UInt8) : i.lineOf? a = i.sourceLines[a.toNat]? := by
  rw [lineOf?, sourceLines, List.getElem?_map]

theorem holds_cellsOf (h : ∀ r ∈ cs, Sound r) : Holds cs ⟨cellsOf 1 cs⟩ := by
  have hcells := map_cellsOf 1 h
  have hlength (i : Image) : i.sourceLines.length = i.bytes.length := by
    rw [length_sourceLines, length_bytes]
  have hlines : (⟨cellsOf 1 cs⟩ : Image).sourceLines = (written 1 cs).map Prod.snd := by
    have := congrArg (List.map Prod.snd) hcells
    rw [List.map_map, List.map_map] at this
    exact this
  refine ⟨?_, hlines, ?_, hlength _, fun a => ?_⟩
  · have := congrArg (List.map Prod.fst) hcells
    rw [List.map_map, List.map_map] at this
    rw [bytes, List.map_map]
    exact this
  · rw [hlines]
    exact (List.pairwise_lt_range' 1).sublist (lines_written_sublist 1 cs)
  · rw [lineOf?_eq]
    split
    next ha => exact List.getElem?_eq_getElem _
    next ha => exact List.getElem?_eq_none (hlength _ ▸ Nat.le_of_not_lt ha)

/-- What comes of a file, by what its lines say. -/
theorem Codes.read_cases {file : List UInt8} (h : Codes file cs) :
    (∃ f, firstFault? 1 cs = some f ∧ read file = .error f) ∨
    ((∀ r ∈ cs, Sound r) ∧ (written 1 cs).length ≤ 256 ∧ read file = .ok ⟨cellsOf 1 cs⟩) ∨
    ((∀ r ∈ cs, Sound r) ∧ 256 < (written 1 cs).length ∧
      read file = .error (.tooLarge (written 1 cs).length)) := by
  have hlines : numbered file = (cs.map Line.ofSaying).zipIdx 1 := by
    rw [numbered_eq, codes_iff.1 h]
  cases hfault : firstFault? 1 cs with
  | some f =>
    have hread : read file = .error f := by
      rw [read, hlines, ← firstFault?, hfault]
    exact .inl ⟨f, rfl, hread⟩
  | none =>
    right
    have hsound := firstFault?_eq_none_iff.1 hfault
    have hread : read file = if (written 1 cs).length ≤ 256 then .ok ⟨cellsOf 1 cs⟩
        else .error (.tooLarge (written 1 cs).length) := by
      rw [read, hlines, ← firstFault?, hfault, ← length_cellsOf hsound]
      rfl
    by_cases hsize : (written 1 cs).length ≤ 256
    · exact .inl ⟨hsound, hsize, by rw [hread, if_pos hsize]⟩
    · exact .inr ⟨hsound, Nat.lt_of_not_le hsize, by rw [hread, if_neg hsize]⟩

theorem Codes.ok_iff {file : List UInt8} (h : Codes file cs) : (∃ i, read file = .ok i) ↔
    (∀ r ∈ cs, Sound r) ∧ (written 1 cs).length ≤ 256 := by
  constructor
  · rintro ⟨i, hi⟩
    rcases h.read_cases with ⟨f, -, hf⟩ | ⟨hsound, hsize, -⟩ | ⟨-, -, hf⟩
    · rw [hi] at hf
      cases hf
    · exact ⟨hsound, hsize⟩
    · rw [hi] at hf
      cases hf
  · rintro ⟨hsound, hsize⟩
    rcases h.read_cases with ⟨f, hf, -⟩ | ⟨-, -, hi⟩ | ⟨-, hlarge, -⟩
    · rw [firstFault?_eq_none_iff.2 hsound] at hf
      cases hf
    · exact ⟨_, hi⟩
    · omega

theorem Codes.holds {file : List UInt8} {i : Image} (h : Codes file cs) (hi : read file = .ok i) :
    Holds cs i := by
  rcases h.read_cases with ⟨f, -, hf⟩ | ⟨hsound, -, hok⟩ | ⟨-, -, hf⟩
  · rw [hi] at hf
    cases hf
  · rw [hi] at hok
    cases hok
    exact holds_cellsOf hsound
  · rw [hi] at hf
    cases hf

theorem Codes.error_iff {file : List UInt8} {f : Fault} (h : Codes file cs) :
    read file = .error f ↔ FaultOf cs f := by
  constructor
  · intro hf
    rcases h.read_cases with ⟨g, hg, hfault⟩ | ⟨-, -, hok⟩ | ⟨hsound, hlarge, hfault⟩
    · rw [hf] at hfault
      cases hfault
      obtain ⟨before, r, after, hcs, hbefore, hr⟩ := firstFault?_eq_some_iff.1 hg
      exact .line hcs hbefore hr
    · rw [hf] at hok
      cases hok
    · rw [hf] at hfault
      cases hfault
      exact .size hsound hlarge
  · intro hf
    cases hf with
    | line hcs hbefore hr =>
      have hfirst := firstFault?_eq_some_iff.2 ⟨_, _, _, hcs, hbefore, hr⟩
      rcases h.read_cases with ⟨g, hg, hfault⟩ | ⟨hsound, -⟩ | ⟨hsound, -⟩
      · rw [hfirst] at hg
        cases hg
        exact hfault
      all_goals
        rw [firstFault?_eq_none_iff.2 hsound] at hfirst
        cases hfirst
    | size hsound hlarge =>
      rcases h.read_cases with ⟨g, hg, -⟩ | ⟨-, hsize, -⟩ | ⟨-, -, hfault⟩
      · rw [firstFault?_eq_none_iff.2 hsound] at hg
        cases hg
      · omega
      · exact hfault

theorem Codes.read_eq {file file' : List UInt8} (h : Codes file cs) (h' : Codes file' cs) :
    read file' = read file := by
  rw [read, read, numbered_eq, numbered_eq, codes_iff.1 h, codes_iff.1 h']

theorem parse_eq (text : String) : parse text = read text.toUTF8.data.toList := by
  rw [parse, Text.toList_eq]

/-- Every file says one sequence of lines, and what comes of the file follows from that alone. -/
theorem read_iff_grammar (file : List UInt8) : ∃ cs, Codes file cs ∧
    (∀ cs', Codes file cs' → cs' = cs) ∧
    ((∃ i, read file = .ok i) ↔ (∀ r ∈ cs, Sound r) ∧ (written 1 cs).length ≤ 256) ∧
    (∀ i, read file = .ok i → Holds cs i) ∧
    (∀ f, read file = .error f ↔ FaultOf cs f) ∧
    (∀ file', Codes file' cs → read file' = read file) ∧
    ∀ text : String, text.toUTF8.data.toList = file → parse text = read file := by
  have h : Codes file ((Text.lines file).map saying) := codes_iff.2 rfl
  refine ⟨_, h, fun cs' h' => (codes_iff.1 h').symm, h.ok_iff, fun i => h.holds,
    fun f => h.error_iff, fun file' h' => h.read_eq h', ?_⟩
  rintro text rfl
  exact parse_eq text

end LS8.Image
