import LS8.CommandLine.Reply
import Mathlib.Data.List.Basic
/-! The error stream of an answer to a run. A record of the log begins with a bracket there and
nothing else does, so what the program says itself and what its log shows can be told apart
(`said_ofNotes`, `logged_ofNotes`). An image that is read fits into memory, so the machine is always
booted with it, and all that the program says itself after that is what it reports at the end of the
run (`said_replyToRun`). -/

namespace LS8

/-- The machine as it is when switched on, with the image from address zero on. -/
def Machine.booted (image : Image) : Machine :=
  { powerOn with mem := Memory.blank.store 0 image.bytes }

theorem Machine.load_powerOn {image : Image} (h : image.size ≤ Memory.size) :
    powerOn.load image.bytes = .ok (booted image, .loaded image.size) := by
  have hfits : (0 : UInt8).toNat + image.bytes.length ≤ Memory.size := by
    rwa [UInt8.toNat_zero, Nat.zero_add, Image.length_bytes]
  rw [load, Memory.load, if_pos hfits, Image.length_bytes]
  rfl

theorem Machine.read_booted {image : Image} (h : image.size ≤ Memory.size) (a : UInt8) :
    (booted image).mem.read a = image.bytes[a.toNat]?.getD 0 := by
  have hfits : (0 : UInt8).toNat + image.bytes.length ≤ Memory.size := by
    rwa [UInt8.toNat_zero, Nat.zero_add, Image.length_bytes]
  rw [booted, Memory.read_store hfits, if_pos UInt8.zero_le, UInt8.toNat_zero, Nat.sub_zero,
    Memory.read_blank]

theorem Image.size_le_of_read {file : List UInt8} {image : Image} (h : read file = .ok image) :
    image.size ≤ Memory.size := by
  unfold read at h
  split at h
  · cases h
  · dsimp only at h
    split at h
    next hsize => cases h; exact hsize
    next => cases h

theorem Image.size_le_of_load {reader : FileReader} {path : String} {image : Image}
    (h : load reader path = .ok image) : image.size ≤ Memory.size := by
  unfold load at h
  split at h
  · cases h
  · cases h
  · exact size_le_of_read h

theorem head?_toList_append {s t : String} {c : Char} (h : s.toList.head? = some c) :
    (s ++ t).toList.head? = some c := by
  rw [String.toList_append, List.head?_append, h, Option.some_or]

theorem LogRecord.head?_shown (r : LogRecord) : r.shown.toList.head? = some '[' := by
  have hbracket : "[".toList.head? = some '[' := rfl
  have hplain {cs : List Char} (h : cs.head? = some '[') :
      (Text.plain cs).head? = some '[' := by
    obtain ⟨rest, rfl⟩ := List.head?_eq_some_iff.1 h
    rfl
  rw [shown, String.toList_ofList]
  exact hplain <| head?_toList_append <| head?_toList_append <| head?_toList_append <|
    head?_toList_append <| head?_toList_append <| head?_toList_append <|
      head?_toList_append hbracket

theorem Machine.head?_pretty_toJson (m : Machine) : m.toJson.pretty.toList.head? = some '\x7b' := by
  have hbrace : "\x7b\n".toList.head? = some '\x7b' := rfl
  rw [toJson, Json.pretty, Json.prettyAt]
  exact head?_toList_append <| head?_toList_append <| head?_toList_append <| head?_toList_append <|
    head?_toList_append <| head?_toList_append <| head?_toList_append <| head?_toList_append hbrace

theorem Event.level_ne_warn (e : Event) : e.level ≠ .warn := by
  cases e <;> simp [level]

namespace CommandLine

def isRecord (line : String) : Bool :=
  line.toList.head? = some '['

def Reply.logged (r : Reply) : List String :=
  r.stderr.filter isRecord

def Reply.said (r : Reply) : List String :=
  r.stderr.filter (!isRecord ·)

namespace Note

def said? : Note → Option String
  | line text => some (text ++ "\n")
  | record _ => none

def logged? (trace : Bool) : Note → Option String
  | line _ => none
  | record r => if trace || r.level = .warn then some r.shown else none

theorem said?_line (text : String) : (line text).said? = some (text ++ "\n") := rfl

def Unbracketed : Note → Prop
  | line text => text.toList.head? ≠ some '['
  | record _ => True

theorem unbracketed_of_head? {text : String} {c : Char} (h : text.toList.head? = some c)
    (hc : c ≠ '[') : (line text).Unbracketed := by
  rw [Unbracketed, h]
  exact fun he => hc (Option.some.inj he)

theorem Unbracketed.isRecord_line {text : String} (h : (line text).Unbracketed) :
    isRecord (text ++ "\n") = false := by
  cases hcs : text.toList with
  | nil => simp [isRecord, hcs]
  | cons c cs => simpa [Unbracketed, isRecord, hcs] using h

theorem isRecord_shown (r : LogRecord) : isRecord r.shown = true := by
  simp [isRecord, r.head?_shown]

theorem Unbracketed.filter_said {n : Note} (h : n.Unbracketed) (trace : Bool) :
    (n.shown? trace).filter (!isRecord ·) = n.said? := by
  cases n with
  | line text => simp [shown?, said?, h.isRecord_line]
  | record r =>
    simp only [shown?, said?]
    split
    · simp [isRecord_shown]
    · rfl

theorem Unbracketed.filter_logged {n : Note} (h : n.Unbracketed) (trace : Bool) :
    (n.shown? trace).filter isRecord = n.logged? trace := by
  cases n with
  | line text => simp [shown?, logged?, h.isRecord_line]
  | record r =>
    simp only [shown?, logged?]
    split
    · simp [isRecord_shown]
    · rfl

end Note

variable {notes : List Note}

theorem said_ofNotes (h : ∀ n ∈ notes, n.Unbracketed) (trace : Bool) (code : UInt8)
    (stdout : String) :
    (Reply.ofNotes trace code stdout notes).said = notes.filterMap Note.said? := by
  rw [Reply.said, Reply.ofNotes, List.filter_filterMap]
  exact List.filterMap_congr fun n hn => (h n hn).filter_said trace

theorem logged_ofNotes (h : ∀ n ∈ notes, n.Unbracketed) (trace : Bool) (code : UInt8)
    (stdout : String) :
    (Reply.ofNotes trace code stdout notes).logged = notes.filterMap (Note.logged? trace) := by
  rw [Reply.logged, Reply.ofNotes, List.filter_filterMap]
  exact List.filterMap_congr fun n hn => (h n hn).filter_logged trace

variable {reader : FileReader} {o : RunOptions} {path : String} {image : Image}

def loadNotes (path : String) (image : Image) : List Note :=
  [.record ⟨.debug, .loader, s!"parsed {image.size} bytes from {path}"⟩,
    .info s!"loaded {image.size} bytes from {path}", .ofEvent (.loaded image.size)]

theorem prepare_of_load (h : Image.load reader path = .ok image) :
    prepare reader path = .ok (image, .booted image, loadNotes path image) := by
  simp only [prepare, h, Machine.load_powerOn (Image.size_le_of_load h)]
  rfl

/-- The notes on a run before it ends: they are all records. -/
def runNotes (path : String) (image : Image) (r : Run) : List Note :=
  loadNotes path image ++ r.log.toList.map Note.ofEvent

def Note.Quiet (n : Note) : Prop :=
  ∃ r, n = record r ∧ r.level ≠ .warn

theorem quiet_runNotes (path : String) (image : Image) (r : Run) :
    ∀ n ∈ runNotes path image r, n.Quiet := by
  intro n hn
  rcases List.mem_append.1 hn with hn | hn
  · rw [loadNotes] at hn
    simp only [List.mem_cons, List.not_mem_nil, or_false] at hn
    rcases hn with rfl | rfl | rfl
    · exact ⟨_, rfl, nofun⟩
    · exact ⟨_, rfl, nofun⟩
    · exact ⟨_, rfl, nofun⟩
  · obtain ⟨e, -, rfl⟩ := List.mem_map.1 hn
    exact ⟨_, rfl, e.level_ne_warn⟩

theorem Note.Quiet.unbracketed {n : Note} (h : n.Quiet) : n.Unbracketed := by
  obtain ⟨r, rfl, -⟩ := h
  trivial

theorem Note.Quiet.said?_eq {n : Note} (h : n.Quiet) : n.said? = none := by
  obtain ⟨r, rfl, -⟩ := h
  rfl

theorem Note.Quiet.logged?_eq {n : Note} (h : n.Quiet) : n.logged? false = none := by
  obtain ⟨r, rfl, hr⟩ := h
  simp [logged?, hr]

def dumpNotes (o : RunOptions) (r : Run) : List Note :=
  if o.dump then [.line r.machine.toJson.pretty] else []

/-- What is said of a fault at `pc`, with the line of the file that the byte there comes from. -/
def faultText (path : String) (line? : Option Nat) (pc : UInt8) (f : Fault) : String :=
  let place := match line? with
    | some line => s!" ({path}:{line})"
    | none => ""
  s!"CPU error at PC=0x{Numeral.hex pc}{place}: {f.message}"

def lastText (i : Instruction) : String :=
  s!"Last executed instruction: {i.text}"

theorem head?_faultText (path : String) (line? : Option Nat) (pc : UInt8) (f : Fault) :
    (faultText path line? pc f).toList.head? = some 'C' := by
  have hfirst : "CPU error at PC=0x".toList.head? = some 'C' := by decide
  exact head?_toList_append (head?_toList_append (head?_toList_append (head?_toList_append hfirst)))

theorem head?_lastText (i : Instruction) : (lastText i).toList.head? = some 'L' := by
  have hfirst : "Last executed instruction: ".toList.head? = some 'L' := by decide
  exact head?_toList_append hfirst

variable {r : Run}

theorem report_of_ok {n : Nat} (h : r.result = .ok n) :
    report o image r = (0, dumpNotes o r ++ endNotes o.limit r) := by
  simp only [report, h]
  rfl

theorem report_of_error {f : Fault} (h : r.result = .error f) :
    report o image r = (1, dumpNotes o r ++ faultNotes o.path image r.machine f) := by
  simp only [report, h]
  rfl

theorem unbracketed_dumpNotes (o : RunOptions) (r : Run) : ∀ n ∈ dumpNotes o r, n.Unbracketed := by
  intro n hn
  unfold dumpNotes at hn
  split at hn
  · obtain rfl := List.mem_singleton.1 hn
    exact Note.unbracketed_of_head? r.machine.head?_pretty_toJson (by decide)
  · cases hn

theorem unbracketed_endNotes (limit : Option UInt64) (r : Run) :
    ∀ n ∈ endNotes limit r, n.Unbracketed := by
  unfold endNotes
  intro n hn
  rcases List.mem_cons.1 hn with rfl | hn
  · trivial
  · split at hn
    · obtain rfl := List.mem_singleton.1 hn
      trivial
    · cases hn

def cellNotes (m : Machine) : List Note :=
  (m.mem.dump m.regs.pc 3).map fun (a, b) =>
    .record ⟨.debug, .tool, s!"0x{Numeral.hex a}: {Numeral.binary b}"⟩

theorem quiet_cellNotes (m : Machine) : ∀ n ∈ cellNotes m, n.Quiet := by
  unfold cellNotes
  rw [List.forall_mem_map]
  exact fun b _ => ⟨_, rfl, nofun⟩

theorem faultNotes_eq (path : String) (image : Image) (m : Machine) (f : Fault) :
    faultNotes path image m f =
      .line (faultText path (image.lineOf? m.regs.pc) m.regs.pc f) ::
        (m.last.map fun i => Note.line (lastText i)).toList ++ cellNotes m := by
  unfold faultNotes
  cases m.last <;> rfl

theorem unbracketed_faultNotes (path : String) (image : Image) (m : Machine) (f : Fault) :
    ∀ n ∈ faultNotes path image m f, n.Unbracketed := by
  have hlast : ∀ n ∈ (m.last.map fun i => Note.line (lastText i)).toList, n.Unbracketed := by
    intro n hn
    rw [Option.mem_toList, Option.map_eq_some_iff] at hn
    obtain ⟨i, -, rfl⟩ := hn
    exact Note.unbracketed_of_head? (head?_lastText i) (by decide)
  rw [faultNotes_eq, List.forall_mem_append, List.forall_mem_cons]
  exact ⟨⟨Note.unbracketed_of_head? (head?_faultText path _ _ f) (by decide), hlast⟩,
    fun n hn => (quiet_cellNotes m n hn).unbracketed⟩

theorem unbracketed_report (o : RunOptions) (image : Image) (r : Run) :
    ∀ n ∈ (report o image r).2, n.Unbracketed := by
  cases hresult : r.result with
  | ok n =>
    rw [report_of_ok hresult, List.forall_mem_append]
    exact ⟨unbracketed_dumpNotes o r, unbracketed_endNotes o.limit r⟩
  | error f =>
    rw [report_of_error hresult, List.forall_mem_append]
    exact ⟨unbracketed_dumpNotes o r, unbracketed_faultNotes o.path image r.machine f⟩

theorem replyToRun_of_load (h : Image.load reader o.path = .ok image) :
    let r := (Machine.booted image).runUntil .accepting o.limit
    replyToRun reader o = .ofNotes o.trace (report o image r).1 r.output
      (runNotes o.path image r ++ (report o image r).2) := by
  rw [replyToRun, prepare_of_load h]
  rfl

theorem unbracketed_replyToRun (o : RunOptions) (image : Image) (r : Run) :
    ∀ n ∈ runNotes o.path image r ++ (report o image r).2, n.Unbracketed :=
  List.forall_mem_append.2
    ⟨fun n hn => (quiet_runNotes o.path image r n hn).unbracketed, unbracketed_report o image r⟩

theorem said_replyToRun (h : Image.load reader o.path = .ok image) :
    (replyToRun reader o).said =
      (report o image ((Machine.booted image).runUntil .accepting o.limit)).2.filterMap
        Note.said? := by
  rw [replyToRun_of_load h, said_ofNotes (unbracketed_replyToRun o image _),
    List.filterMap_append, List.filterMap_eq_nil_iff.2, List.nil_append]
  exact fun n hn => (quiet_runNotes o.path image _ n hn).said?_eq

/-- Without a trace only the report at the end can hold a warning. -/
theorem logged_replyToRun (h : Image.load reader o.path = .ok image) (htrace : o.trace = false) :
    (replyToRun reader o).logged =
      (report o image ((Machine.booted image).runUntil .accepting o.limit)).2.filterMap
        (Note.logged? false) := by
  rw [replyToRun_of_load h, logged_ofNotes (unbracketed_replyToRun o image _), htrace,
    List.filterMap_append, List.filterMap_eq_nil_iff.2, List.nil_append]
  exact fun n hn => (quiet_runNotes o.path image _ n hn).logged?_eq

end CommandLine

end LS8
