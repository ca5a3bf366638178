import LS8.Text.Plain
/-! Log records: how grave, from which part of the program, and what. -/

namespace LS8

inductive Level where
  | trace | debug | info | warn
deriving DecidableEq, Repr

namespace Level

def name : Level → String
  | trace => "TRACE"
  | debug => "DEBUG"
  | info => "INFO"
  | warn => "WARN"

end Level

inductive Source where
  | engine | loader | tool
deriving DecidableEq, Repr

def Source.name : Source → String
  | engine => "ls8::cpu::execute"
  | loader => "ls8::image::loader"
  | tool => "ls8_emu"

structure LogRecord where
  level : Level
  source : Source
  text : String
deriving DecidableEq, Repr

/-- The record as it is shown: plain, with the level filled up to five characters, and with every
line after the first indented by four spaces. -/
def LogRecord.shown (r : LogRecord) : String :=
  let gap := "".pushn ' ' (5 - r.level.name.length)
  let text := "\n    ".intercalate (r.text.splitOn "\n")
  .ofList (Text.plain s!"[{r.level.name}{gap} {r.source.name}] {text}\n".toList)

end LS8
