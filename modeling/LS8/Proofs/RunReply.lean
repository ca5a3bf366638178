import LS8.Proofs.ErrorStream
import LS8.Proofs.Resumption
import LS8.Proofs.SaveRestore
/-! The answer to a run, from the arguments to the exit code. A file that is no image is refused
with its name and its fault and nothing is printed. Any other is run, and the answer is that of the
run: its output, an exit code that says whether it ended without a fault, a warning where the limit
cut it off and the machine after it where that is asked for. -/

namespace LS8.CommandLine

theorem Argument.ofString_of_head? {s : String} (h : s.toList.head? ≠ some '-') :
    ofString s = plain s := by
  unfold ofString
  split
  next hs => rw [hs] at h; exact absurd rfl h
  next hs => rw [hs] at h; exact absurd rfl h
  next hs => rw [hs] at h; exact absurd rfl h
  next => rfl

def limitText (n : UInt64) : String :=
  toString n.toNat

theorem toList_limitText (n : UInt64) : (limitText n).toList = Nat.toDigits 10 n.toNat := by
  rw [limitText, Nat.toString_eq_repr, Nat.toList_repr]

theorem head?_limitText_ne (n : UInt64) {c : Char} (hc : ¬ c.isDigit) :
    (limitText n).toList.head? ≠ some c := by
  intro h
  rw [toList_limitText] at h
  exact hc (Numeral.isDigit_toDigits n.toNat c (List.mem_of_mem_head? h))

theorem counter?_limitText (n : UInt64) : counter? (limitText n) = some n := by
  have hplus := head?_limitText_ne n (c := '+') (by decide)
  have hword :
      ¬ ((Nat.toDigits 10 n.toNat).isEmpty || !(Nat.toDigits 10 n.toNat).all Char.isDigit) := by
    rw [List.all_eq_true.2 (Numeral.isDigit_toDigits n.toNat),
      List.isEmpty_eq_false_iff.2 Nat.toDigits_ne_nil]
    decide
  unfold counter?
  rw [toList_limitText] at hplus ⊢
  split
  next h => rw [h] at hplus; exact absurd rfl hplus
  next =>
    dsimp only
    rw [if_neg hword, Nat.ofDigitChars_ten_toDigits, if_pos n.toNat_lt, UInt64.ofNat_toNat]

def runArguments (path : String) (limit : Option UInt64) (dump : Bool) : List String :=
  "run" :: path :: (limit.elim [] fun n => ["--max-cycles", limitText n]) ++
    if dump then ["--dump-state"] else []

theorem ofArguments_runArguments {path : String} (hpath : Argument.ofString path = .plain path)
    (limit : Option UInt64) (dump : Bool) :
    Command.ofArguments (runArguments path limit dump) = .run ⟨path, limit, false, dump⟩ := by
  have hrun : Argument.ofString "run" = .plain "run" := rfl
  have hmax : Argument.ofString "--max-cycles" = .long "max-cycles" none := rfl
  have hdump : Argument.ofString "--dump-state" = .long "dump-state" none := rfl
  have hlimit (n : UInt64) : Argument.ofString (limitText n) = .plain (limitText n) :=
    Argument.ofString_of_head? (head?_limitText_ne n (by decide))
  cases limit <;> cases dump <;>
    simp [runArguments, Command.ofArguments, hrun, ofItems, itemsOfRun, itemsOfRun.withValue, hpath,
      hmax, hdump, hlimit, Draft.add, counter?_limitText, Except.bind, bind, pure, Except.pure]

variable {reader : FileReader} {o : RunOptions} {image : Image}

theorem replyToRun_of_refused {f : Image.Fault} (h : Image.load reader o.path = .error f) :
    replyToRun reader o = ⟨1, "", [s!"Failed to load {o.path}: {f.message}\n"]⟩ := by
  simp only [replyToRun, prepare, h]
  rfl

def limitWarning (limit : Option UInt64) : LogRecord :=
  let text := match limit with
    | some n => s!"Some({n.toNat})"
    | none => "None"
  ⟨.warn, .tool, s!"reached max cycles limit ({text}) without halting"⟩

variable {r : Run}

theorem code_report_eq_zero_iff : (report o image r).1 = 0 ↔ ∃ n, r.result = .ok n := by
  cases hresult : r.result with
  | ok n => simp [report_of_ok hresult]
  | error f => simp [report_of_error hresult]

theorem code_report_eq_one_iff : (report o image r).1 = 1 ↔ ∃ f, r.result = .error f := by
  cases hresult : r.result with
  | ok n => simp [report_of_ok hresult]
  | error f => simp [report_of_error hresult]

theorem logged_dumpNotes : (dumpNotes o r).filterMap (Note.logged? false) = [] := by
  unfold dumpNotes
  split <;> rfl

theorem logged_endNotes (limit : Option UInt64) :
    (endNotes limit r).filterMap (Note.logged? false) =
      if r.machine.state = .running then [(limitWarning limit).shown] else [] := by
  have hrunning : r.machine.isRunning = decide (r.machine.state = .running) := rfl
  unfold endNotes
  rw [hrunning]
  by_cases h : r.machine.state = .running
  · simp only [h]
    rfl
  · simp only [h]
    rfl

theorem logged_faultNotes (path : String) (m : Machine) (f : Fault) :
    (faultNotes path image m f).filterMap (Note.logged? false) = [] := by
  have hlast : (m.last.map fun i => Note.line (lastText i)).toList.filterMap (Note.logged? false) =
      [] := by
    cases m.last <;> rfl
  have hcells : (cellNotes m).filterMap (Note.logged? false) = [] :=
    List.filterMap_eq_nil_iff.2 fun n hn => (quiet_cellNotes m n hn).logged?_eq
  rw [faultNotes_eq, List.filterMap_append, List.filterMap_cons_none rfl, hlast, hcells]
  rfl

theorem mem_logged_report_iff {line : String} :
    line ∈ (report o image r).2.filterMap (Note.logged? false) ↔
      line = (limitWarning o.limit).shown ∧ (∃ n, r.result = .ok n) ∧
        r.machine.state = .running := by
  cases hresult : r.result with
  | ok n =>
    rw [report_of_ok hresult, List.filterMap_append, logged_dumpNotes, logged_endNotes]
    by_cases h : r.machine.state = .running <;> simp [h]
  | error f =>
    rw [report_of_error hresult, List.filterMap_append, logged_dumpNotes, logged_faultNotes]
    simp

theorem mem_logged_iff {r : Reply} {line : String} (h : isRecord line) :
    line ∈ r.logged ↔ line ∈ r.stderr := by
  simp [Reply.logged, h]

/-- The machine after the run is the first thing that the program says where it is asked for. -/
theorem said_of_dump (hload : Image.load reader o.path = .ok image) (hdump : o.dump = true) :
    ∃ line back, (replyToRun reader o).said = line :: back ∧
      Json.parse? line =
        some ((Machine.booted image).runUntil .accepting o.limit).machine.toJson := by
  obtain ⟨code, notes, hreport⟩ :=
    report_of_dump hdump image ((Machine.booted image).runUntil .accepting o.limit)
  refine ⟨_, notes.filterMap Note.said?, ?_, (Machine.exact_toJson _).parse?_prettyLine⟩
  rw [said_replyToRun hload, hreport]
  rfl

/-- The answer to a run, whatever is in the file and whatever the limit. A file that is an image
always fits, and the machine that runs has its bytes from address zero on and is otherwise as it was
when switched on. -/
theorem run_answers_end_to_end (reader : FileReader) (path : String) (limit : Option UInt64)
    (dump : Bool) :
    let o : RunOptions := ⟨path, limit, false, dump⟩
    let answer := reply reader (.run o)
    (Argument.ofString path = .plain path →
      Command.ofArguments (runArguments path limit dump) = .run o) ∧
    (∀ f, Image.load reader path = .error f →
      answer = ⟨1, "", [s!"Failed to load {path}: {f.message}\n"]⟩) ∧
    ∀ image, Image.load reader path = .ok image →
      ∃ m loaded, Machine.powerOn.load image.bytes = .ok (m, loaded) ∧
        m = { Machine.powerOn with mem := m.mem } ∧
        (∀ a : UInt8, m.mem.read a = image.bytes[a.toNat]?.getD 0) ∧
        let r := m.runUntil .accepting limit
        answer.stdout = r.output ∧
        r.output = String.join (r.printed.toList.map fun v => toString v.toNat ++ "\n") ∧
        (answer.code = 0 ↔ ∃ n, r.result = .ok n) ∧
        (answer.code = 1 ↔ ∃ f, r.result = .error f) ∧
        ((limitWarning limit).shown ∈ answer.stderr ↔
          (∃ n, r.result = .ok n) ∧ r.machine.state = .running) ∧
        (∀ line ∈ answer.logged, line = (limitWarning limit).shown) ∧
        (dump = true → ∃ line back, answer.said = line :: back ∧
          Json.parse? line = some r.machine.toJson) := by
  intro o answer
  refine ⟨fun hpath => ofArguments_runArguments hpath limit dump,
    fun f hf => replyToRun_of_refused (o := o) hf, fun image himage => ?_⟩
  have hload : Image.load reader o.path = .ok image := himage
  have hanswer : answer = replyToRun reader o := rfl
  have hlogged := logged_replyToRun hload rfl
  have hsize := Image.size_le_of_load hload
  refine ⟨.booted image, _, Machine.load_powerOn hsize, rfl, Machine.read_booted hsize, ?_⟩
  intro r
  have hreply := replyToRun_of_load hload
  refine ⟨?_, r.output_eq_join, ?_, ?_, ?_, ?_, fun hdump => said_of_dump hload hdump⟩
  · rw [hanswer, hreply]
    rfl
  · rw [hanswer, hreply]
    exact code_report_eq_zero_iff
  · rw [hanswer, hreply]
    exact code_report_eq_one_iff
  · rw [← mem_logged_iff (Note.isRecord_shown _), hanswer, hlogged, mem_logged_report_iff]
    exact and_iff_right rfl
  · intro line hline
    rw [hanswer, hlogged, mem_logged_report_iff] at hline
    exact hline.1

/-- The file `a.ls8` holds the program, and every other file a line that is too short. -/
def printingReader : FileReader :=
  fun path => .ok (if path = "a.ls8" then printingFile else "101\n".toUTF8.toList)

def printingReply (limit : Option UInt64) (dump : Bool) : Reply :=
  reply printingReader (.run ⟨"a.ls8", limit, false, dump⟩)

/-- With a limit of two the program is cut off before its halt, and without one it halts. -/
theorem run_answers_printing :
    ((printingReply (some 2) true).code = 0 ∧ (printingReply (some 2) true).stdout = "8\n" ∧
      (limitWarning (some 2)).text = "reached max cycles limit (Some(2)) without halting" ∧
      (limitWarning (some 2)).shown ∈ (printingReply (some 2) true).stderr ∧
      ∃ line back m, (printingReply (some 2) true).said = line :: back ∧
        Json.parse? line = some (Machine.toJson m) ∧
        m.state = .running ∧ m.regs.pc = 5 ∧ m.mem.read 3 = 0x47) ∧
    ((printingReply none false).code = 0 ∧ (printingReply none false).stdout = "8\n" ∧
      (limitWarning none).shown ∉ (printingReply none false).stderr) ∧
    reply printingReader (.run ⟨"b.ls8", none, false, false⟩) =
      ⟨1, "", ["Failed to load b.ls8: format error on line 1: " ++
        "expected 8 binary digits, found \"101\"\n"]⟩ := by
  have hload : Image.load printingReader "a.ls8" = .ok printingImage := by decide +kernel
  have hbooted {m : Machine} {loaded : Event}
      (hm : Machine.powerOn.load printingImage.bytes = .ok (m, loaded)) :
      m = .booted printingImage := by
    rw [Machine.load_powerOn (by decide)] at hm
    cases hm
    rfl
  refine ⟨?_, ?_, ?_⟩
  · obtain ⟨-, -, hanswer⟩ := run_answers_end_to_end printingReader "a.ls8" (some 2) true
    obtain ⟨m, loaded, hm, -, -, hout, -, hcode, -, hwarn, -, hdump⟩ := hanswer printingImage hload
    obtain rfl := hbooted hm
    obtain ⟨line, back, hsaid, hline⟩ := hdump rfl
    refine ⟨hcode.2 ⟨2, by decide +kernel⟩, hout.trans (by decide +kernel), by decide +kernel,
      hwarn.2 ⟨⟨2, by decide +kernel⟩, by decide +kernel⟩, line, back, _, hsaid, hline, ?_⟩
    decide +kernel
  · obtain ⟨-, -, hanswer⟩ := run_answers_end_to_end printingReader "a.ls8" none false
    obtain ⟨m, loaded, hm, -, -, hout, -, hcode, -, hwarn, -⟩ := hanswer printingImage hload
    obtain rfl := hbooted hm
    refine ⟨hcode.2 ⟨3, by decide +kernel⟩, hout.trans (by decide +kernel), fun hmem => ?_⟩
    have hhalted : ((Machine.booted printingImage).runUntil .accepting none).machine.state =
        .halted := by decide +kernel
    have hrunning := (hwarn.1 hmem).2
    rw [hhalted] at hrunning
    cases hrunning
  · obtain ⟨-, hrefused, -⟩ := run_answers_end_to_end printingReader "b.ls8" none false
    have hfault : Image.load printingReader "b.ls8" = .error (.format 1 "101") := by
      decide +kernel
    rw [hrefused _ hfault]
    decide +kernel

end LS8.CommandLine
