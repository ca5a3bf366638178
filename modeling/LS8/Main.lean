import LS8.CommandLine.Reply
/-! The program itself. A run is shown while it goes on: it is cut into slices of many instructions,
and what a slice printed and logged is written before the next one begins. -/

namespace LS8

open CommandLine

/-- How many instructions are run before their output is written. -/
def sliceSize : Nat := 4096

def FileError.ofIoError : IO.Error → FileError
  | .noFileOrDirectory .. => .notFound
  | .permissionDenied .. => ⟨"Permission denied", some 13⟩
  | .inappropriateType _ code reason => ⟨reason, some code.toNat⟩
  | .invalidArgument _ code reason => ⟨reason, some code.toNat⟩
  | e => ⟨toString e, none⟩

def fileBytes (path : String) : IO (Except ReadFault (List UInt8)) := do
  match ← (IO.FS.Handle.mk path .read).toBaseIO with
  | .error e => return .error (.unopened (.ofIoError e))
  | .ok handle =>
    match ← handle.readBinToEnd.toBaseIO with
    | .error e => return .error (.unread (.ofIoError e))
    | .ok bytes => return .ok bytes.toList

def showNotes (trace : Bool) (notes : List Note) : IO Unit :=
  (notes.filterMap (Note.shown? trace)).forM IO.eprint

/-- Runs what is left of an allowance slice by slice. -/
partial def runShown (trace : Bool) (allowance : Nat) (r : Run) : IO Run := do
  let slice := min sliceSize allowance
  let r := r.extend .accepting slice
  let stdout ← IO.getStdout
  stdout.putStr r.output
  stdout.flush
  showNotes trace (r.log.toList.map Note.ofEvent)
  let r := { r with printed := #[], log := #[] }
  if r.isOver || allowance ≤ slice then return r
  else runShown trace (allowance - slice) r

def runCommand (reader : FileReader) (o : RunOptions) : IO UInt32 := do
  match prepare reader o.path with
  | .error note =>
    showNotes o.trace [note]
    return 1
  | .ok (image, m, before) =>
    showNotes o.trace before
    let r ← runShown o.trace (Machine.allowance m.cycles o.limit) (.start m)
    let (code, after) := report o image r
    showNotes o.trace after
    return code.toUInt32

end LS8

open LS8 CommandLine in
def main (args : List String) : IO UInt32 := do
  let command := Command.ofArguments args
  let file ← match command.path? with
    | some path => fileBytes path
    | none => pure (.error (.unopened .notFound))
  let reader : FileReader := fun _ => file
  match command with
  | .run o => runCommand reader o
  | c =>
    let answer := reply reader c
    IO.print answer.stdout
    answer.stderr.forM IO.eprint
    return answer.code.toUInt32
