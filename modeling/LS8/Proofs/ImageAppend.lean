import LS8.Image
import LS8.Proofs.LineGrammar
/-! Image files one behind the other. If the first one is empty or ends with a line feed, no line
runs across the seam, so the lines of both are the lines of the one and then those of the other
(`Text.lines_append`), numbered on behind as many as there are line feeds before. What comes of both
follows from what comes of each: a fault on a line counts from the beginning of its own file, and
the size, which is looked at last, is that of both together. -/

namespace LS8

namespace Text

/-- No line is left unended. -/
def Ended (bytes : List UInt8) : Prop :=
  bytes = [] ∨ bytes.getLast? = some 10

variable {l rest bytes more : List UInt8} {ls ms : List (List UInt8)}

theorem Ended.behind_feed (h : Ended (l ++ 10 :: rest)) : Ended rest := by
  cases rest with
  | nil => exact .inl rfl
  | cons b rest =>
    rcases h with h | h
    · simp at h
    · rw [List.getLast?_append, List.getLast?_cons_cons, List.getLast?_cons, Option.some_or] at h
      exact .inr (by rw [List.getLast?_cons, h])

theorem Ended.behind_return (h : Ended (l ++ 13 :: 10 :: rest)) : Ended rest := by
  rw [List.append_cons] at h
  exact h.behind_feed

theorem not_ended_of_not_mem (hne : l ≠ []) (hl : 10 ∉ l) : ¬ Ended l := by
  rintro (h | h)
  · exact hne h
  · exact hl (List.mem_of_getLast? h)

/-- By induction on the lines before the seam, none of which is left unended. -/
theorem Cut.append (h : Cut bytes ls) (hend : Ended bytes) (hmore : Cut more ms) :
    Cut (bytes ++ more) (ls ++ ms) := by
  induction h with
  | empty => exact hmore
  | unended hne hl => exact absurd hend (not_ended_of_not_mem hne hl)
  | feed hl hlast _ ih =>
    rw [List.append_assoc]
    exact .feed hl hlast (ih hend.behind_feed)
  | returnFeed hl _ ih =>
    rw [List.append_assoc]
    exact .returnFeed hl (ih hend.behind_return)

theorem Cut.length_eq (h : Cut bytes ls) (hend : Ended bytes) : ls.length = bytes.count 10 := by
  induction h with
  | empty => rfl
  | unended hne hl => exact absurd hend (not_ended_of_not_mem hne hl)
  | feed hl _ _ ih =>
    rw [List.length_cons, ih hend.behind_feed, List.count_append, List.count_eq_zero_of_not_mem hl,
      List.count_cons_self, Nat.zero_add]
  | returnFeed hl _ ih =>
    rw [List.length_cons, ih hend.behind_return, List.count_append,
      List.count_eq_zero_of_not_mem hl, List.count_cons_of_ne (by decide), List.count_cons_self,
      Nat.zero_add]

theorem lines_append (hend : Ended bytes) (more : List UInt8) :
    lines (bytes ++ more) = lines bytes ++ lines more :=
  ((cut_lines bytes).append hend (cut_lines more)).lines_eq

theorem length_lines (hend : Ended bytes) : (lines bytes).length = bytes.count 10 :=
  (cut_lines bytes).length_eq hend

end Text

namespace Image

def Fault.OfLine : Fault → Prop
  | format _ _ | notUtf8 => True
  | _ => False

/-- The fault, with `k` lines before its file. -/
def Fault.behind (k : Nat) : Fault → Fault
  | format line code => format (line + k) code
  | f => f

def Cell.behind (k : Nat) (c : Cell) : Cell :=
  { c with line := c.line + k }

/-- What comes of a file whose lines are all in order, and how many bytes they hold. -/
inductive Sized : Except Fault Image → Nat → Prop
  | fits (i : Image) : Sized (.ok i) i.size
  | tooLarge (n : Nat) : Sized (.error (.tooLarge n)) n

def fault? (file : List UInt8) : Option Fault :=
  (numbered file).findSome? lineFault?

def cellsIn (file : List UInt8) : List Cell :=
  (numbered file).filterMap lineCell?

variable {file : List UInt8} {f : Fault} {n : Nat}

theorem read_of_fault (h : fault? file = some f) : read file = .error f := by
  rw [fault?] at h
  rw [read, h]

theorem read_of_no_fault (h : fault? file = none) : read file =
    if (cellsIn file).length ≤ 256 then .ok ⟨cellsIn file⟩
    else .error (.tooLarge (cellsIn file).length) := by
  rw [fault?] at h
  rw [read, h]
  rfl

theorem ofLine_of_lineFault? {x : Line × Nat} (h : lineFault? x = some f) : f.OfLine := by
  obtain ⟨l, n⟩ := x
  cases l <;> cases h <;> trivial

theorem ofLine_of_fault? (h : fault? file = some f) : f.OfLine := by
  obtain ⟨x, -, hx⟩ := List.exists_of_findSome?_eq_some h
  exact ofLine_of_lineFault? hx

theorem fault?_eq_some_iff : fault? file = some f ↔ read file = .error f ∧ f.OfLine := by
  constructor
  · intro h
    exact ⟨read_of_fault h, ofLine_of_fault? h⟩
  · rintro ⟨h, hline⟩
    cases hfault : fault? file with
    | some g =>
      rw [read_of_fault hfault] at h
      cases h
      rfl
    | none =>
      rw [read_of_no_fault hfault] at h
      split at h <;> cases h
      exact hline.elim

theorem sized_of_no_fault (h : fault? file = none) : Sized (read file) (cellsIn file).length := by
  rw [read_of_no_fault h]
  split
  · exact .fits ⟨cellsIn file⟩
  · exact .tooLarge _

theorem Sized.unique {r : Except Fault Image} {n n' : Nat} (h : Sized r n) (h' : Sized r n') :
    n = n' := by
  cases h <;> cases h' <;> rfl

theorem Sized.fault?_eq_none (h : Sized (read file) n) : fault? file = none := by
  cases hfault : fault? file with
  | none => rfl
  | some f =>
    have hline := ofLine_of_fault? hfault
    rw [read_of_fault hfault] at h
    cases h
    exact hline.elim

theorem Sized.length_cellsIn (h : Sized (read file) n) : (cellsIn file).length = n :=
  (sized_of_no_fault h.fault?_eq_none).unique h

theorem Sized.read_eq (h : Sized (read file) n) :
    read file = if n ≤ 256 then .ok ⟨cellsIn file⟩ else .error (.tooLarge n) := by
  rw [read_of_no_fault h.fault?_eq_none, h.length_cellsIn]

section

variable {before : List UInt8} (hend : Text.Ended before) (file : List UInt8)

include hend

theorem numbered_append : numbered (before ++ file) =
    numbered before ++ (numbered file).map (Prod.map id (· + before.count 10)) := by
  rw [numbered, Text.lines_append hend, List.map_append, List.zipIdx_append, List.length_map,
    Text.length_lines hend, numbered, numbered, List.map_snd_add_zipIdx_eq_zipIdx, Nat.add_comm 1]

theorem fault?_append : fault? (before ++ file) =
    (fault? before).or ((fault? file).map (Fault.behind (before.count 10))) := by
  rw [fault?, numbered_append hend, List.findSome?_append, List.findSome?_map, fault?, fault?,
    List.map_findSome?]
  congr 2
  funext ⟨l, n⟩
  cases l <;> rfl

theorem cellsIn_append : cellsIn (before ++ file) =
    cellsIn before ++ (cellsIn file).map (Cell.behind (before.count 10)) := by
  rw [cellsIn, numbered_append hend, List.filterMap_append, List.filterMap_map, cellsIn, cellsIn,
    List.map_filterMap]
  congr 2
  funext ⟨l, n⟩
  cases l <;> rfl

end

/-- What comes of two files one behind the other follows from what comes of each. -/
theorem read_append (before file : List UInt8) (hend : Text.Ended before) :
    let k := before.count 10
    (∀ t, (∃ f, read t = .error f ∧ f.OfLine) ∨ ∃ n, Sized (read t) n) ∧
    (∀ f, read before = .error f → f.OfLine → read (before ++ file) = .error f) ∧
    (∀ n₁ f, Sized (read before) n₁ → read file = .error f → f.OfLine →
      read (before ++ file) = .error (f.behind k)) ∧
    ∀ n₁ n₂, Sized (read before) n₁ → Sized (read file) n₂ →
      (read (before ++ file) = .error (.tooLarge (n₁ + n₂)) ↔ 256 < n₁ + n₂) ∧
      (n₁ + n₂ ≤ 256 → ∃ i₁ i₂ i,
        read before = .ok i₁ ∧ read file = .ok i₂ ∧ read (before ++ file) = .ok i ∧
        i.bytes = i₁.bytes ++ i₂.bytes ∧
        i.sourceLines = i₁.sourceLines ++ i₂.sourceLines.map (· + k)) := by
  intro k
  have hfault := fault?_append hend file
  have hcells := cellsIn_append hend file
  refine ⟨fun t => ?_, fun f h hline => ?_, fun n₁ f h₁ h hline => ?_, fun n₁ n₂ h₁ h₂ => ?_⟩
  · cases h : fault? t with
    | some f => exact .inl ⟨f, fault?_eq_some_iff.1 h⟩
    | none => exact .inr ⟨_, sized_of_no_fault h⟩
  · rw [fault?_eq_some_iff.2 ⟨h, hline⟩] at hfault
    exact read_of_fault hfault
  · rw [h₁.fault?_eq_none, fault?_eq_some_iff.2 ⟨h, hline⟩] at hfault
    exact read_of_fault hfault
  · rw [h₁.fault?_eq_none, h₂.fault?_eq_none] at hfault
    have hsized := sized_of_no_fault hfault
    rw [hcells, List.length_append, List.length_map, h₁.length_cellsIn, h₂.length_cellsIn] at hsized
    constructor
    · rw [hsized.read_eq]
      split <;> simp <;> omega
    · intro hfits
      refine ⟨⟨cellsIn before⟩, ⟨cellsIn file⟩, ⟨cellsIn (before ++ file)⟩, ?_, ?_, ?_, ?_, ?_⟩
      · rw [h₁.read_eq, if_pos (by omega)]
      · rw [h₂.read_eq, if_pos (by omega)]
      · rw [hsized.read_eq, if_pos hfits]
      · rw [hcells, bytes, List.map_append, List.map_map]
        rfl
      · rw [hcells, sourceLines, List.map_append, List.map_map, sourceLines, sourceLines,
          List.map_map]
        rfl

/-- A comment and a byte. -/
def haltFile : List UInt8 :=
  "# halt\r\n00000001\r\n".toUTF8.toList

/-- A byte, and a line that is too short. -/
def shortFile : List UInt8 :=
  "11111111\n0000".toUTF8.toList

theorem read_behind_haltFile :
    Text.Ended haltFile ∧ read haltFile = .ok ⟨[⟨1, 2⟩]⟩ ∧
      read shortFile = .error (.format 2 "0000") ∧
      read (haltFile ++ shortFile) = .error (.format 4 "0000") ∧
      ∃ i, read (haltFile ++ haltFile) = .ok i ∧ i.bytes = [1, 1] ∧ i.sourceLines = [2, 4] := by
  have hend : Text.Ended haltFile := .inr (by decide +kernel)
  have hlines : haltFile.count 10 = 2 := by decide +kernel
  have hhalt : read haltFile = .ok ⟨[⟨1, 2⟩]⟩ := by decide +kernel
  have hshort : read shortFile = .error (.format 2 "0000") := by decide +kernel
  have hsized : Sized (read haltFile) 1 := by
    rw [hhalt]
    exact .fits _
  obtain ⟨-, -, hraised, -⟩ := read_append haltFile shortFile hend
  obtain ⟨-, -, -, hboth⟩ := read_append haltFile haltFile hend
  obtain ⟨-, hfits⟩ := hboth 1 1 hsized hsized
  obtain ⟨i₁, i₂, i, h₁, h₂, hi, hbytes, hsource⟩ := hfits (by decide)
  rw [hhalt] at h₁ h₂
  cases h₁
  cases h₂
  rw [hlines] at hsource
  refine ⟨hend, hhalt, hshort, ?_, i, hi, hbytes, hsource⟩
  rw [hraised 1 _ hsized hshort trivial, hlines]
  rfl

end Image

end LS8
