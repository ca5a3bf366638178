import LS8.Proofs.ErrorStream
import LS8.Proofs.ImageWriting
import LS8.Proofs.RunLoop
/-! What is said of a fault. A step that fails leaves the program counter where it was and does not
become the last instruction (`kept_of_failed`), so at the end of a run that failed the counter is
the address that the failing instruction was fetched from, and the last instruction is the one that
the step before completed (`last_of_after`). The line that is said to be at fault is the one whose
code is the image's byte at that address (`Image.Codes.supplies`), whatever has been pushed over
that byte since. -/

namespace LS8

def Fault.place? : Fault → Option UInt8
  | unknownOpcode _ pc => some pc
  | pcOutOfRange pc _ => some pc
  | _ => none

namespace Machine

variable {m : Machine} {refusal : UInt8 → Option String} {f : Fault}

theorem kept_of_failed (h : (m.step refusal).result = .error f) :
    (m.step refusal).machine.regs.pc = m.regs.pc ∧ (m.step refusal).machine.last = m.last := by
  rcases step_cases refusal m with ⟨-, hs⟩ | ⟨-, -, hs⟩ |
    ⟨-, i, -, ⟨g, -, hs⟩ | ⟨-, g, -, hs⟩ | ⟨-, -, hs⟩⟩
  all_goals rw [hs] at h ⊢; cases h
  · exact ⟨rfl, rfl⟩
  · exact ⟨rfl, rfl⟩
  · exact ⟨rfl, rfl⟩
  · exact ⟨i.pc_regsAfter _ _, rfl⟩

theorem place_of_obstacle {i : Instruction} {pc : UInt8}
    (h : i.obstacle m.regs refusal = some f) (hpc : f.place? = some pc) : pc = m.regs.pc := by
  rcases Instruction.obstacle_cases h with ⟨e, rfl⟩ | ⟨-, rfl⟩ | rfl | rfl | ⟨reason, rfl⟩
  · cases hpc
  · exact (Option.some.inj hpc).symm
  all_goals cases hpc

/-- A fault that names an address names the one that its instruction was fetched from. -/
theorem place_of_failed {pc : UInt8} (h : (m.step refusal).result = .error f)
    (hpc : f.place? = some pc) : pc = m.regs.pc := by
  rcases step_cases refusal m with ⟨-, hs⟩ | ⟨-, -, hs⟩ |
    ⟨-, i, -, ⟨g, ho, hs⟩ | ⟨-, g, hoff, hs⟩ | ⟨-, -, hs⟩⟩
  all_goals rw [hs] at h; cases h
  · cases hpc
  · exact (Option.some.inj hpc).symm
  · exact place_of_obstacle ho hpc
  · obtain ⟨-, rfl⟩ := Instruction.runsOff_eq_some_iff.1 hoff
    exact (Option.some.inj hpc).symm

end Machine

section

variable {refusal : Array UInt8 → UInt8 → Option String} {m m' : Machine} {lines : Array UInt8}
  {k : Nat}

/-- The instruction that the `k`th step completes. -/
def Machine.completedBy (refusal : Array UInt8 → UInt8 → Option String) (m : Machine) :
    Nat → Option Instruction
  | 0 => none
  | k + 1 => (m.after refusal k).bind fun (m', lines) =>
    (m'.step (refusal lines)).result.toOption

theorem Machine.completedBy_succ {i : Instruction} {m₁ : Machine} {lines₁ : Array UInt8}
    (h : m.after refusal k = some (m₁, lines₁)) (hi : (m₁.step (refusal lines₁)).result = .ok i) :
    m.completedBy refusal (k + 1) = some i := by
  simp only [completedBy, h, Option.bind_some, hi]
  rfl

theorem Machine.last_of_after (h : m.after refusal k = some (m', lines)) :
    m'.last = (m.completedBy refusal k).or m.last := by
  cases k with
  | zero => cases h; rfl
  | succ k =>
    obtain ⟨i, m₁, lines₁, h₁, hi, rfl⟩ := after_succ h
    rw [completedBy_succ h₁ hi]
    rfl

theorem Machine.isSome_completedBy_iff (h : m.after refusal k = some (m', lines)) :
    (m.completedBy refusal k).isSome ↔ 0 < k := by
  cases k with
  | zero => simp [completedBy]
  | succ k =>
    obtain ⟨i, m₁, lines₁, h₁, hi, -⟩ := after_succ h
    simp [completedBy_succ h₁ hi]

end

/-- A run that failed has taken steps up to the one that failed. -/
theorem Machine.runUntil_failed {c : Console} {m : Machine} {limit : Option UInt64} {f : Fault}
    (h : (m.runUntil c limit).result = .error f) :
    ∃ m' lines, m.after c.refusal (m.runUntil c limit).count = some (m', lines) ∧
      (m'.step (c.refusal lines)).result = .error f ∧
      (m.runUntil c limit).machine = (m'.step (c.refusal lines)).machine := by
  obtain ⟨k, m', lines, -, -, hsteps, -, -, hend⟩ := m.runUntil_ends c limit
  by_cases hq : Quiet c m limit k m' lines
  · -- a run that may not go on ends without a fault
    obtain ⟨hok, -, -⟩ := hend.quiet hq
    rw [h] at hok
    cases hok
  · obtain ⟨g, hg, hresult, hmachine, -⟩ := hend.failed hq
    rw [h] at hresult
    cases hresult
    exact ⟨m', lines, hend.count.symm ▸ hsteps, hg, hmachine⟩

namespace Image

variable {cs : List (Option (List Char))}

/-- What is written was written on the line with its number. -/
theorem getElem?_of_mem_written {first : Nat} {w : List Char × Nat} (h : w ∈ written first cs) :
    first ≤ w.2 ∧ cs[w.2 - first]? = some (some w.1) := by
  obtain ⟨⟨r, n⟩, hr, hw⟩ := List.mem_filterMap.1 h
  obtain ⟨c, hc, rfl⟩ := Option.map_eq_some_iff.1 hw
  obtain ⟨rfl, -⟩ := Option.filter_eq_some_iff.1 hc
  exact List.mk_mem_zipIdx_iff_le_and_getElem?_sub.1 hr

/-- Line `line` of a file that says `cs` has the code that supplied the byte at an address. -/
def Supplies (cs : List (Option (List Char))) (i : Image) (a : UInt8) (line : Nat) : Prop :=
  ∃ c b, (written 1 cs)[a.toNat]? = some (c, line) ∧ 1 ≤ line ∧ cs[line - 1]? = some (some c) ∧
    i.bytes[a.toNat]? = some b ∧ b.toNat = binaryValue c

theorem Codes.supplies {file : List UInt8} {i : Image} {a : UInt8} {line : Nat}
    (h : Codes file cs) (hi : read file = .ok i) (hline : i.lineOf? a = some line) :
    Supplies cs i a line := by
  have hholds := h.holds hi
  rw [lineOf?_eq, hholds.sourceLines, List.getElem?_map, Option.map_eq_some_iff] at hline
  obtain ⟨⟨c, n⟩, hw, rfl⟩ := hline
  obtain ⟨hfirst, hcode⟩ := getElem?_of_mem_written (List.mem_of_getElem? hw)
  have hbyte := congrArg (·[a.toNat]?) hholds.bytes
  simp only [List.getElem?_map, hw, Option.map_some, Option.map_eq_some_iff] at hbyte
  obtain ⟨b, hb, hvalue⟩ := hbyte
  exact ⟨c, b, hw, hfirst, hcode, hb, hvalue⟩

theorem isSome_lineOf?_iff {i : Image} {a : UInt8} : (i.lineOf? a).isSome ↔ a.toNat < i.size := by
  simp [lineOf?, size]

end Image

namespace CommandLine

variable {o : RunOptions} {image : Image} {r : Run}

theorem said_report_of_error {f : Fault} (h : r.result = .error f) :
    (report o image r).2.filterMap Note.said? =
      (if o.dump then [r.machine.toJson.pretty ++ "\n"] else []) ++
        (faultText o.path (image.lineOf? r.machine.regs.pc) r.machine.regs.pc f ++ "\n") ::
          (r.machine.last.map fun i => lastText i ++ "\n").toList := by
  have hdump : (dumpNotes o r).filterMap Note.said? =
      if o.dump then [r.machine.toJson.pretty ++ "\n"] else [] := by
    unfold dumpNotes
    split <;> rfl
  have hlast : (r.machine.last.map fun i => Note.line (lastText i)).toList.filterMap Note.said? =
      (r.machine.last.map fun i => lastText i ++ "\n").toList := by
    cases r.machine.last <;> rfl
  have hcells : (cellNotes r.machine).filterMap Note.said? = [] :=
    List.filterMap_eq_nil_iff.2 fun n hn => (quiet_cellNotes r.machine n hn).said?_eq
  rw [report_of_error h, List.filterMap_append, hdump, faultNotes_eq, List.filterMap_append,
    List.filterMap_cons_some (Note.said?_line _), hlast, hcells, List.append_nil]

/-- What is said of a run that failed, whatever it was connected to, names the place of the failing
instruction and the last one before it. -/
theorem fault_report_locates {reader : FileReader} {o : RunOptions} {c : Console}
    {file : List UInt8} {image : Image} {f : Fault} (hfile : reader o.path = .ok file)
    (himage : Image.read file = .ok image)
    (hfault : ((Machine.booted image).runUntil c o.limit).result = .error f) :
    let r := (Machine.booted image).runUntil c o.limit
    ∃ m lines cs,
      (Machine.booted image).after c.refusal r.count = some (m, lines) ∧
      (m.step (c.refusal lines)).result = .error f ∧
      (∀ pc, f.place? = some pc → pc = m.regs.pc) ∧
      Image.Codes file cs ∧
      ((image.lineOf? m.regs.pc).isSome ↔ m.regs.pc.toNat < image.size) ∧
      (∀ line, image.lineOf? m.regs.pc = some line → Image.Supplies cs image m.regs.pc line) ∧
      (((Machine.booted image).completedBy c.refusal r.count).isSome ↔ 0 < r.count) ∧
      (report o image r).2.filterMap Note.said? =
        (if o.dump then [r.machine.toJson.pretty ++ "\n"] else []) ++
          (faultText o.path (image.lineOf? m.regs.pc) m.regs.pc f ++ "\n") ::
            (((Machine.booted image).completedBy c.refusal r.count).map
              fun i => lastText i ++ "\n").toList ∧
      (c = .accepting →
        (reply reader (.run o)).said = (report o image r).2.filterMap Note.said?) := by
  intro r
  obtain ⟨m, lines, hafter, hfailed, hmachine⟩ := Machine.runUntil_failed hfault
  obtain ⟨hpc, hlast⟩ := Machine.kept_of_failed hfailed
  have hcodes : Image.Codes file ((Text.lines file).map Image.saying) := Image.codes_iff.2 rfl
  have hload : Image.load reader o.path = .ok image := by
    simp only [Image.load, hfile, himage]
  refine ⟨m, lines, _, hafter, hfailed, fun pc => Machine.place_of_failed hfailed, hcodes,
    Image.isSome_lineOf?_iff, fun line => hcodes.supplies himage,
    Machine.isSome_completedBy_iff hafter, ?_, ?_⟩
  · have hboot : (Machine.booted image).last = none := rfl
    have hdone := Machine.last_of_after hafter
    rw [hboot, Option.or_none] at hdone
    -- the report is about the machine that the failing step left
    rw [said_report_of_error hfault, hmachine, hpc, hlast, hdone]
  · rintro rfl
    exact said_replyToRun hload

/-- A program of one load, with a byte behind it that is no opcode. -/
def faultyFile : List UInt8 :=
  "# load, then nothing\n10000010 # LDI\n00000000\n00001000\n\n11111111\n".toUTF8.toList

def faultyImage : Image :=
  ⟨[⟨0x82, 2⟩, ⟨0, 3⟩, ⟨8, 4⟩, ⟨0xFF, 6⟩]⟩

def faultyReader : FileReader :=
  fun _ => .ok faultyFile

def faultyOptions : RunOptions :=
  ⟨"a.ls8", none, false, false⟩

theorem fault_report_locates_opcode :
    Image.read faultyFile = .ok faultyImage ∧
      ((Machine.booted faultyImage).runUntil .accepting none).result =
        .error (.unknownOpcode 0xFF 3) ∧
      (reply faultyReader (.run faultyOptions)).said =
        ["CPU error at PC=0x03 (a.ls8:6): unknown opcode 0b11111111 at PC=0x03\n",
          "Last executed instruction: LDI R0,8\n"] := by
  have hread : Image.read faultyFile = .ok faultyImage := by decide +kernel
  have hfault : ((Machine.booted faultyImage).runUntil .accepting none).result =
      .error (.unknownOpcode 0xFF 3) := by decide +kernel
  have hcount : ((Machine.booted faultyImage).runUntil .accepting none).count = 1 := by
    decide +kernel
  have hfile : faultyReader faultyOptions.path = .ok faultyFile := rfl
  have hlimit : faultyOptions.limit = none := rfl
  obtain ⟨m, lines, cs, -, -, hplace, -, -, -, -, hsaid, hreply⟩ :=
    fault_report_locates (c := .accepting) hfile hread hfault
  refine ⟨hread, hfault, (hreply rfl).trans (hsaid.trans ?_)⟩
  rw [← hplace 3 rfl, hlimit, hcount]
  decide +kernel

end CommandLine

end LS8
