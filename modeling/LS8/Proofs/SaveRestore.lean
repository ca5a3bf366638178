import LS8.CommandLine.Reply
import LS8.Proofs.JsonRead
import LS8.Session
/-! Saving and restoring. A saved form restores the machine it was saved from, so a session in which
a machine is saved and restored at any point goes on as if that had not happened, and whatever form
is accepted, saving the restored machine again loses nothing. The text that a run shows of its last
machine is read back as that machine's saved form. -/

namespace LS8

open Json

/-! Saved forms hold integers only and name no field twice. -/

theorem exact_ofBytes (bytes : List UInt8) : Exact (.ofBytes bytes) :=
  .arr (List.forall_mem_map.2 fun b _ => .int b.toNat)

theorem Registers.exact_toJson (r : Registers) : Exact r.toJson := by
  apply Exact.obj
  · change ["gp", "pc", "fl"].Nodup
    decide
  · simp only [List.forall_mem_cons]
    exact ⟨exact_ofBytes _, .int _, .int _, nofun⟩

theorem Memory.exact_toJson (m : Memory) : Exact m.toJson := by
  apply Exact.obj
  · change ["cells"].Nodup
    decide
  · exact List.forall_mem_singleton.2 (exact_ofBytes _)

theorem Instruction.exact_toJson (i : Instruction) : Exact i.toJson := by
  apply Exact.obj
  · change ["opcode", "a", "b"].Nodup
    decide
  · simp only [List.forall_mem_cons]
    exact ⟨.str _, .int _, .int _, nofun⟩

theorem Machine.exact_toJson (m : Machine) : Exact m.toJson := by
  have hlast : Exact (m.last.elim .null Instruction.toJson) := by
    cases m.last with
    | none => exact .null
    | some i => exact i.exact_toJson
  apply Exact.obj
  · change ["regs", "mem", "state", "cycles", "last_instr"].Nodup
    decide
  · simp only [List.forall_mem_cons]
    exact ⟨m.regs.exact_toJson, m.mem.exact_toJson, .str _, .int _, hlast, nofun⟩

/-! Other forms of a saved machine. -/

/-- A name as the one field of an object. -/
def tagged (name : String) : Json :=
  .obj [(name, .null)]

theorem Opcode.ofJson_tagged (op : Opcode) : ofJson (tagged op.name) = .ok op :=
  op.ofJson_toJson

theorem RunState.ofJson_tagged (s : RunState) : ofJson (tagged s.name) = .ok s :=
  s.ofJson_toJson

/-- A machine in which every record is an array and every name is tagged. -/
def Machine.toArrays (m : Machine) : Json :=
  .arr [.arr [.ofBytes m.regs.gp.toList, .int m.regs.pc.toNat, m.regs.fl.toJson],
    .arr [.ofBytes m.mem.toList], tagged m.state.name, .int m.cycles.toNat,
    m.last.elim .null fun i => .arr [tagged i.opcode.name, .int i.a.toNat, .int i.b.toNat]]

theorem Machine.ofJson_toArrays (m : Machine) : ofJson m.toArrays = .ok m := by
  obtain ⟨regs, mem, state, cycles, last⟩ := m
  have hlast : Instruction.lastOfJson (last.elim .null fun i =>
      .arr [tagged i.opcode.name, .int i.a.toNat, .int i.b.toNat]) = .ok last := by
    cases last with
    | none => rfl
    | some i =>
      simp [Instruction.lastOfJson, Instruction.ofJson, Opcode.ofJson_tagged, bind, Except.bind,
        pure, Except.pure, Except.map]
  simp [ofJson, toArrays, Registers.ofJson, Memory.ofJson, Memory.ofCells, RunState.ofJson_tagged,
    hlast, bind, Except.bind, pure, Except.pure, Functor.map, Except.map]

/-- The fields of an object that stand for a machine, in any order and among any others. The last
instruction may be missing if there is none. -/
structure Machine.Fields (m : Machine) (fields : List (String × Json)) : Prop where
  regs : fields.lookup "regs" = some m.regs.toJson
  mem : fields.lookup "mem" = some m.mem.toJson
  state : fields.lookup "state" = some m.state.toJson
  cycles : fields.lookup "cycles" = some (.int m.cycles.toNat)
  last : fields.lookup "last_instr" = some (m.last.elim .null Instruction.toJson) ∨
    fields.lookup "last_instr" = none ∧ m.last = none

theorem Machine.Fields.ofJson_eq {m : Machine} {fields : List (String × Json)}
    (h : m.Fields fields) : ofJson (.obj fields) = .ok m := by
  obtain ⟨regs, mem, state, cycles, last⟩ := m
  rcases h.last with hlast | ⟨hlast, hnone⟩
  · simp [ofJson, h.regs, h.mem, h.state, h.cycles, hlast, bind, Except.bind, pure, Except.pure,
      Functor.map, Except.map]
  · simp only at hnone
    simp [ofJson, h.regs, h.mem, h.state, h.cycles, hlast, hnone, bind, Except.bind, pure,
      Except.pure, Functor.map, Except.map]

namespace Session

theorem length_answers (m : Machine) (rs : List Request) : (answers m rs).length = rs.length := by
  induction rs generalizing m with
  | nil => rfl
  | cons r rs ih => rw [answers, List.length_cons, ih, List.length_cons]

/-- A session may be cut anywhere. -/
theorem answers_append (m : Machine) (rs ts : List Request) :
    answers m (rs ++ ts) = answers m rs ++ answers (after m rs) ts := by
  induction rs generalizing m with
  | nil => rfl
  | cons r rs ih => rw [List.cons_append, answers, ih, answers, after, List.cons_append]

theorem after_append (m : Machine) (rs ts : List Request) :
    after m (rs ++ ts) = after (after m rs) ts := by
  induction rs generalizing m with
  | nil => rfl
  | cons r rs ih => rw [List.cons_append, after, ih, after]

theorem machine_save (m : Machine) : (perform m .save).run.machine = m := rfl

theorem perform_restore (m : Machine) :
    perform m (.restore m.toJson) = perform m .look := by
  have hattempt : perform m (.restore m.toJson) =
      .attempt m .refusal (fun m => (m, .done)) (Machine.ofJson m.toJson) := rfl
  rw [hattempt, Machine.ofJson_toJson]
  rfl

/-- A session with a save and a restore put in. -/
theorem answers_save_restore (m : Machine) (before later : List Request) :
    answers m (before ++ .save :: .restore (after m before).toJson :: later) =
      answers m before ++ answer (after m before) (perform (after m before) .save) ::
        answer (after m before) (perform (after m before) .look) ::
          answers (after m before) later := by
  rw [answers_append, answers, answers, machine_save, perform_restore]
  rfl

theorem after_save_restore (m : Machine) (before later : List Request) :
    after m (before ++ .save :: .restore (after m before).toJson :: later) =
      after m (before ++ later) := by
  rw [after_append, after_append, after, after, machine_save, perform_restore]
  rfl

end Session

namespace CommandLine

theorem report_of_dump {o : RunOptions} (hdump : o.dump = true) (image : Image) (r : Run) :
    ∃ code notes, report o image r = (code, .line r.machine.toJson.pretty :: notes) := by
  unfold report
  rw [if_pos hdump]
  dsimp only
  split
  · exact ⟨_, _, rfl⟩
  · exact ⟨_, _, rfl⟩

/-- With the option to show it, the machine after the run stands on the error stream, also after a
fault. -/
theorem stderr_replyToRun {reader : FileReader} {o : RunOptions} {image : Image} {m : Machine}
    {before : List Note} (hdump : o.dump = true)
    (h : prepare reader o.path = .ok (image, m, before)) :
    ∃ front back, (replyToRun reader o).stderr =
      front ++ ((m.runUntil .accepting o.limit).machine.toJson.pretty ++ "\n") :: back := by
  obtain ⟨code, notes, hreport⟩ := report_of_dump hdump image (m.runUntil .accepting o.limit)
  rw [replyToRun, h]
  dsimp only
  rw [hreport]
  dsimp only [Reply.ofNotes]
  rw [List.filterMap_append, List.filterMap_cons]
  exact ⟨_, _, rfl⟩

end CommandLine

open Session CommandLine in
/-- Saving and restoring lose nothing, in every session and in the text of a saved machine. -/
theorem save_restore_transparent :
    (∀ m : Machine, Machine.ofJson m.toJson = .ok m) ∧
    (∀ before later : List Request, ∃ saved first second,
      first.result = .saved saved ∧ second.result = .done ∧
      answers .powerOn (before ++ .save :: .restore saved :: later) =
        (answers .powerOn (before ++ later)).take before.length ++ first :: second ::
          (answers .powerOn (before ++ later)).drop before.length ∧
      after .powerOn (before ++ .save :: .restore saved :: later) =
        after .powerOn (before ++ later)) ∧
    (∀ (j : Json) (m : Machine), Machine.ofJson j = .ok m → Machine.ofJson m.toJson = .ok m) ∧
    (∀ m : Machine, Machine.ofJson m.toArrays = .ok m ∧
      ∀ fields, m.Fields fields → Machine.ofJson (.obj fields) = .ok m) ∧
    (∀ (reader : FileReader) (o : RunOptions) (image : Image) (m : Machine) (notes : List Note),
      o.dump = true → prepare reader o.path = .ok (image, m, notes) →
      ∃ front line back, (replyToRun reader o).stderr = front ++ line :: back ∧
        Json.parse? line = some (m.runUntil .accepting o.limit).machine.toJson) := by
  refine ⟨Machine.ofJson_toJson, ?_, fun _ m _ => m.ofJson_toJson,
    fun m => ⟨m.ofJson_toArrays, fun _ h => h.ofJson_eq⟩, ?_⟩
  · intro before later
    have hanswers := answers_append .powerOn before later
    have hlength := length_answers .powerOn before
    refine ⟨(after .powerOn before).toJson,
      answer (after .powerOn before) (perform (after .powerOn before) .save),
      answer (after .powerOn before) (perform (after .powerOn before) .look), rfl, rfl, ?_, ?_⟩
    · rw [answers_save_restore, hanswers, ← hlength, List.take_left, List.drop_left]
    · exact after_save_restore .powerOn before later
  · intro reader o image m notes hdump h
    obtain ⟨front, back, hstderr⟩ := stderr_replyToRun hdump h
    exact ⟨front, _, back, hstderr, (Machine.exact_toJson _).parse?_prettyLine⟩

namespace Session

/-- A program that sets a register, prints it and halts, after the first of its three steps. -/
def begunSession : List Request :=
  [.load [0x82, 0, 8, 0x47, 0, 0x01], .step .accepting]

/-- The fields of a machine just switched on in an order of their own, with one too many and without
the last instruction. -/
def looseFields : List (String × Json) :=
  [("cycles", .int 0), ("comment", .str "idle"), ("state", .str "Running"),
    ("mem", Machine.powerOn.mem.toJson), ("regs", Machine.powerOn.regs.toJson)]

end Session

namespace CommandLine

/-- The same program in a file. -/
def printingFile : List UInt8 :=
  "10000010 # LDI\n00000000\n00001000\n01000111 # PRN\n00000000\n00000001 # HLT\n".toUTF8.toList

def printingImage : Image :=
  ⟨[⟨0x82, 1⟩, ⟨0, 2⟩, ⟨8, 3⟩, ⟨0x47, 4⟩, ⟨0, 5⟩, ⟨0x01, 6⟩]⟩

end CommandLine

open Session CommandLine in
theorem begunSession_survives_saving :
    (∃ (saved : Json) (first second : Answer),
      first.result = .saved saved ∧ second.result = .done ∧
      (answers .powerOn (begunSession ++ [.save, .restore saved, .run .accepting])).map
        Answer.output = ["", "", first.output, second.output, "8\n"] ∧
      (after .powerOn (begunSession ++ [.save, .restore saved, .run .accepting])).cycles = 3) ∧
    Machine.ofJson (after .powerOn begunSession).toArrays = .ok (after .powerOn begunSession) ∧
    Machine.ofJson (.obj looseFields) = .ok .powerOn ∧
    Machine.ofJson Machine.powerOn.toJson = .ok .powerOn ∧
    ∃ line ∈ (replyToRun (fun _ => .ok printingFile) ⟨"a.ls8", none, false, true⟩).stderr,
      ∃ m : Machine, Json.parse? line = some m.toJson ∧ m.state = .halted ∧ m.cycles = 3 := by
  obtain ⟨-, hsessions, hagain, hforms, hdump⟩ := save_restore_transparent
  have hloose : Machine.powerOn.Fields looseFields := ⟨rfl, rfl, rfl, rfl, .inr ⟨rfl, rfl⟩⟩
  have haccepted := (hforms .powerOn).2 looseFields hloose
  refine ⟨?_, (hforms _).1, haccepted, hagain _ _ haccepted, ?_⟩
  · obtain ⟨saved, first, second, hfirst, hsecond, hanswers, hafter⟩ :=
      hsessions begunSession [.run .accepting]
    refine ⟨saved, first, second, hfirst, hsecond, ?_, ?_⟩
    · rw [hanswers]
      rfl
    · rw [hafter]
      rfl
  · have hload : Image.load (fun _ => .ok printingFile) "a.ls8" = .ok printingImage := by
      decide +kernel
    obtain ⟨notes, hprepare⟩ : ∃ notes, prepare (fun _ => .ok printingFile) "a.ls8" =
        .ok (printingImage, after .powerOn (begunSession.take 1), notes) := by
      simp only [prepare, hload]
      exact ⟨_, rfl⟩
    obtain ⟨front, line, back, hstderr, hline⟩ :=
      hdump _ ⟨"a.ls8", none, false, true⟩ _ _ _ rfl hprepare
    refine ⟨line, ?_, _, hline, ?_⟩
    · rw [hstderr]
      exact List.mem_append_right _ (List.mem_cons_self ..)
    · decide +kernel

end LS8
