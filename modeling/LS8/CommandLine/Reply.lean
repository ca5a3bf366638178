import LS8.CommandLine.Command
import LS8.Image
import LS8.Json
import LS8.Listing
import LS8.Machine.Run
import LS8.Saved
/-! What the program answers: an exit code, what it prints and what it shows beside that on the
error stream. A run has three parts, so that it can be shown while it goes on: `prepare` loads the
image, then the machine runs, then `report` tells how the run ended. -/

namespace LS8.CommandLine

structure Reply where
  code : UInt8
  stdout : String
  /-- What is written to the error stream, note by note. -/
  stderr : List String
deriving DecidableEq, Repr

/-- The lines on the error stream. A file's name may break what is written into more lines than
there are notes. -/
def Reply.stderrLines (r : Reply) : List String :=
  (Text.lines (String.join r.stderr).toUTF8.toList).filterMap Text.ofUtf8?

inductive Note where
  /-- Written as it is. -/
  | line (text : String)
  /-- Shown if the log shows it. -/
  | record (r : LogRecord)
deriving DecidableEq, Repr

/-- The note as it is written, if it is shown; without a trace only warnings of the log are. -/
def Note.shown? (trace : Bool) : Note → Option String
  | line text => some (text ++ "\n")
  | record r => if trace || r.level = .warn then some r.shown else none

def Reply.ofNotes (trace : Bool) (code : UInt8) (stdout : String) (notes : List Note) : Reply :=
  ⟨code, stdout, notes.filterMap (Note.shown? trace)⟩

def Note.ofEvent (e : Event) : Note :=
  record e.toRecord

def Note.info (text : String) : Note :=
  record ⟨.info, .tool, text⟩

def bannerText : String :=
  "LS-8 Emulator v0.1.0\nAn 8-bit computer emulator\n\nUse --help for available commands\n"

def versionText : String :=
  "ls8-emu 0.1.0\n"

def helpText : String :=
  "An emulator of the LS-8 8-bit computer\n\n" ++
  "Usage: ls8-emu [COMMAND]\n\n" ++
  "Commands:\n" ++
  "  run     Run a program until it halts\n" ++
  "  disasm  Disassemble a program image to readable text\n\n" ++
  "Options of run:\n" ++
  "  -m, --max-cycles <MAX_CYCLES>  Stop after this many instructions\n" ++
  "  -t, --trace                    Log a trace line for every instruction (to stderr)\n" ++
  "  -d, --dump-state               Print the final machine state as JSON (to stderr)\n\n" ++
  "Options:\n" ++
  "  -h, --help     Print help\n" ++
  "  -V, --version  Print version\n"

def loadFailure (path : String) (f : Image.Fault) : Note :=
  .line s!"Failed to load {path}: {f.message}"

/-- Loads the image into a machine that was just switched on. The fault comes as its note. -/
def prepare (reader : FileReader) (path : String) :
    Except Note (Image × Machine × List Note) :=
  match Image.load reader path with
  | .error f => .error (loadFailure path f)
  | .ok image =>
    match Machine.powerOn.load image.bytes with
    | .error e => .error (.line s!"Failed to load program: {e.message}")
    | .ok (m, loaded) =>
      .ok (image, m,
        [.record ⟨.debug, .loader, s!"parsed {image.size} bytes from {path}"⟩,
          .info s!"loaded {image.size} bytes from {path}", .ofEvent loaded])

/-- The notes on a fault: where it happened, in memory and in the image's file, what it was, which
instruction was the last before it and the bytes from there on. -/
def faultNotes (path : String) (image : Image) (m : Machine) (f : Fault) : List Note :=
  let pc := m.regs.pc
  let place := match image.lineOf? pc with
    | some line => s!" ({path}:{line})"
    | none => ""
  let last := match m.last with
    | some i => [Note.line s!"Last executed instruction: {i.text}"]
    | none => []
  let bytes := (m.mem.dump pc 3).map fun (a, b) =>
    Note.record ⟨.debug, .tool, s!"0x{Numeral.hex a}: {Numeral.binary b}"⟩
  .line s!"CPU error at PC=0x{Numeral.hex pc}{place}: {f.message}" :: last ++ bytes

def endNotes (limit : Option UInt64) (r : Run) : List Note :=
  let limitText := match limit with
    | some n => s!"Some({n.toNat})"
    | none => "None"
  let warning := s!"reached max cycles limit ({limitText}) without halting"
  .info s!"executed {r.count} instructions" ::
    if r.machine.isRunning then [.record ⟨.warn, .tool, warning⟩] else []

def report (o : RunOptions) (image : Image) (r : Run) : UInt8 × List Note :=
  let dump := if o.dump then [Note.line r.machine.toJson.pretty] else []
  match r.result with
  | .error f => (1, dump ++ faultNotes o.path image r.machine f)
  | .ok _ => (0, dump ++ endNotes o.limit r)

def replyToRun (reader : FileReader) (o : RunOptions) : Reply :=
  match prepare reader o.path with
  | .error note => .ofNotes o.trace 1 "" [note]
  | .ok (image, m, before) =>
    let r := m.runUntil .accepting o.limit
    let (code, after) := report o image r
    .ofNotes o.trace code r.output (before ++ r.log.toList.map Note.ofEvent ++ after)

def replyToListing (reader : FileReader) (path : String) : Reply :=
  match Image.load reader path with
  | .error f => .ofNotes false 1 "" [loadFailure path f]
  | .ok image => ⟨0, Listing.text image.bytes, []⟩

def reply (reader : FileReader) : Command → Reply
  | .banner => ⟨0, bannerText, []⟩
  | .version => ⟨0, versionText, []⟩
  | .help => ⟨0, helpText, []⟩
  | .misuse reason => .ofNotes false 2 "" [.line s!"error: {reason}"]
  | .run o => replyToRun reader o
  | .disassemble path => replyToListing reader path

end LS8.CommandLine
