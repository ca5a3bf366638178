import LS8.Numeral
import LS8.Text
/-! One line of a program image: eight binary digits or nothing, then perhaps a comment. -/

namespace LS8.Image

inductive Line where
  | blank
  | byte (b : UInt8)
  /-- The line's code is neither empty nor a byte. -/
  | malformed (code : String)
  | notUtf8
deriving DecidableEq, Repr

/-- The code of a line: what stands before the first `#`, without the white space around it. -/
def code (line : List Char) : List Char :=
  Text.trim (line.takeWhile (· ≠ '#'))

namespace Line

def ofText (s : String) : Line :=
  match code s.toList with
  | [] => blank
  | cs =>
    match Numeral.ofBits? cs with
    | some b => byte b
    | none => malformed (String.ofList cs)

def ofBytes (bytes : List UInt8) : Line :=
  match Text.ofUtf8? bytes with
  | some s => ofText s
  | none => notUtf8

def byte? : Line → Option UInt8
  | byte b => some b
  | _ => none

end Line

end LS8.Image
