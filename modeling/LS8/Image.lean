import LS8.FileTree
import LS8.Image.Line
import LS8.Memory
import LS8.Text.Quoted
/-! Program images: the bytes of a program, each with the number of the line it was written on. The
first line that is not in order decides why an image is refused; its size is looked at only when
every line is in order. -/

namespace LS8

namespace Image

/-- A byte and the line it stands on, counted from one. -/
structure Cell where
  byte : UInt8
  line : Nat
deriving DecidableEq, Repr

inductive Fault where
  | unopened (path : String) (cause : FileError)
  | unread (cause : FileError)
  | notUtf8
  | format (line : Nat) (code : String)
  | tooLarge (size : Nat)
deriving DecidableEq, Repr

def Fault.message : Fault → String
  | unopened path cause => s!"I/O error: {path}: {cause.message}"
  | unread cause => s!"I/O error: {cause.message}"
  | notUtf8 => "I/O error: stream did not contain valid UTF-8"
  | format line code =>
    s!"format error on line {line}: expected 8 binary digits, found {Text.quote code}"
  | tooLarge size => s!"image holds {size} bytes, more than fit in memory"

end Image

/-- The bytes of a program in load order, starting at address zero. -/
structure Image where
  cells : List Image.Cell
deriving DecidableEq, Repr

namespace Image

def empty : Image := ⟨[]⟩

def push (i : Image) (byte : UInt8) (line : Nat) : Image :=
  ⟨i.cells ++ [⟨byte, line⟩]⟩

def bytes (i : Image) : List UInt8 :=
  i.cells.map Cell.byte

def sourceLines (i : Image) : List Nat :=
  i.cells.map Cell.line

def size (i : Image) : Nat :=
  i.cells.length

def isEmpty (i : Image) : Bool :=
  i.cells.isEmpty

/-- The line that the byte at an address was written on, if the image reaches so far. -/
def lineOf? (i : Image) (a : UInt8) : Option Nat :=
  i.cells[a.toNat]?.map Cell.line

def lineFault? : Line × Nat → Option Fault
  | (.malformed code, n) => some (.format n code)
  | (.notUtf8, _) => some .notUtf8
  | _ => none

def lineCell? : Line × Nat → Option Cell
  | (.byte b, n) => some ⟨b, n⟩
  | _ => none

def numbered (file : List UInt8) : List (Line × Nat) :=
  ((Text.lines file).map Line.ofBytes).zipIdx 1

def read (file : List UInt8) : Except Fault Image :=
  match (numbered file).findSome? lineFault? with
  | some f => .error f
  | none =>
    let cells := (numbered file).filterMap lineCell?
    if cells.length ≤ Memory.size then .ok ⟨cells⟩ else .error (.tooLarge cells.length)

def parse (text : String) : Except Fault Image :=
  read text.toUTF8.toList

def load (reader : FileReader) (path : String) : Except Fault Image :=
  match reader path with
  | .error (.unopened e) => .error (.unopened path e)
  | .error (.unread e) => .error (.unread e)
  | .ok bytes => read bytes

@[simp] theorem length_bytes (i : Image) : i.bytes.length = i.size := by
  simp [bytes, size]

@[simp] theorem length_sourceLines (i : Image) : i.sourceLines.length = i.size := by
  simp [sourceLines, size]

end Image

end LS8
