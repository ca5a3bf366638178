import LS8.Numeral
/-! What the program is asked to do, read from its arguments. Options may stand before or after the
file, letters may be joined (`-td`), and a value may follow its option at once, after an equals sign
or as the next argument. After `--` everything is a file. -/

namespace LS8.CommandLine

structure RunOptions where
  path : String
  /-- At most so many instructions. -/
  limit : Option UInt64
  /-- Show every log record and not only warnings. -/
  trace : Bool
  /-- Show the machine after the run. -/
  dump : Bool
deriving DecidableEq, Repr

inductive Command where
  | banner
  | version
  | help
  | run (options : RunOptions)
  | disassemble (path : String)
  | misuse (reason : String)
deriving DecidableEq, Repr

inductive Argument where
  | separator
  | long (name : String) (value : Option String)
  | short (letters : List Char)
  | plain (text : String)
deriving DecidableEq, Repr

def Argument.ofString (s : String) : Argument :=
  match s.toList with
  | ['-', '-'] => separator
  | '-' :: '-' :: cs =>
    match cs.span (· ≠ '=') with
    | (name, '=' :: value) => long (String.ofList name) (some (String.ofList value))
    | (name, _) => long (String.ofList name) none
  | '-' :: c :: cs => short (c :: cs)
  | _ => plain s

inductive Item where
  | file (path : String)
  | limit (digits : String)
  | trace
  | dump
  | help
  | misuse (reason : String)
deriving DecidableEq, Repr

def unexpected (what : String) : Item :=
  .misuse s!"unexpected argument '{what}' found"

/-- What joined letters say, and whether the last of them still waits for its value. -/
def ofLetters : List Char → List Item × Bool
  | [] => ([], false)
  | 'm' :: cs =>
    match cs with
    | [] => ([], true)
    | '=' :: value => ([.limit (String.ofList value)], false)
    | value => ([.limit (String.ofList value)], false)
  | c :: cs =>
    let item := match c with
      | 't' => .trace
      | 'd' => .dump
      | 'h' => .help
      | _ => unexpected s!"-{c}"
    let (items, waits) := ofLetters cs
    (item :: items, waits)

def itemsOfRun : List String → List Item
  | [] => []
  | arg :: rest =>
    match Argument.ofString arg with
    | .separator => rest.map .file
    | .plain path => .file path :: itemsOfRun rest
    | .long "max-cycles" (some value) => .limit value :: itemsOfRun rest
    | .long "max-cycles" none => withValue rest
    | .long "trace" none => .trace :: itemsOfRun rest
    | .long "dump-state" none => .dump :: itemsOfRun rest
    | .long "help" none => [.help]
    | .long _ _ => [unexpected arg]
    | .short letters =>
      match ofLetters letters with
      | (items, false) => items ++ itemsOfRun rest
      | (items, true) => items ++ withValue rest
where
  /-- The same where the first argument is the value of the limit. -/
  withValue : List String → List Item
    | [] => [.misuse "a value is required for '--max-cycles <MAX_CYCLES>' but none was supplied"]
    | value :: rest =>
      match Argument.ofString value with
      | .plain digits => .limit digits :: itemsOfRun rest
      | _ => [.misuse "a value is required for '--max-cycles <MAX_CYCLES>' but none was supplied"]

def itemsOfListing : List String → List Item
  | [] => []
  | arg :: rest =>
    match Argument.ofString arg with
    | .separator => rest.map .file
    | .plain path => .file path :: itemsOfListing rest
    | .long "help" none => [.help]
    | .short ('h' :: _) => [.help]
    | _ => [unexpected arg]

/-- A count of instructions: decimal digits, perhaps after a plus sign. -/
def counter? (s : String) : Option UInt64 :=
  let digits := match s.toList with
    | '+' :: cs => cs
    | cs => cs
  if digits.isEmpty || !digits.all Char.isDigit then none
  else
    let n := Nat.ofDigitChars 10 digits 0
    if n < UInt64.size then some (UInt64.ofNat n) else none

structure Draft where
  path : Option String
  limit : Option UInt64
  trace : Bool
  dump : Bool

/-- The draft with one thing more; nothing may be said twice. -/
def Draft.add (d : Draft) : Item → Except Command Draft
  | .file path =>
    if d.path.isSome then .error (.misuse s!"unexpected argument '{path}' found")
    else .ok { d with path := some path }
  | .limit digits =>
    if d.limit.isSome then
      .error (.misuse "the argument '--max-cycles <MAX_CYCLES>' cannot be used multiple times")
    else
      match counter? digits with
      | some n => .ok { d with limit := some n }
      | none => .error (.misuse s!"invalid value '{digits}' for '--max-cycles <MAX_CYCLES>'")
  | .trace =>
    if d.trace then .error (.misuse "the argument '--trace' cannot be used multiple times")
    else .ok { d with trace := true }
  | .dump =>
    if d.dump then .error (.misuse "the argument '--dump-state' cannot be used multiple times")
    else .ok { d with dump := true }
  | .help => .error .help
  | .misuse reason => .error (.misuse reason)

def ofItems (items : List Item) (make : Draft → String → Command) : Command :=
  match items.foldlM Draft.add ⟨none, none, false, false⟩ with
  | .error c => c
  | .ok d =>
    match d.path with
    | some path => make d path
    | none => .misuse "the following required arguments were not provided: <PROGRAM>"

/-- The command that the arguments make up. A file alone is no command. -/
def Command.ofArguments : List String → Command
  | [] => banner
  | arg :: rest =>
    match Argument.ofString arg with
    | .separator =>
      match rest with
      | [] => banner
      | file :: _ => misuse s!"unexpected argument '{file}' found"
    | .plain "run" =>
      ofItems (itemsOfRun rest) fun d path => run ⟨path, d.limit, d.trace, d.dump⟩
    | .plain "disasm" => ofItems (itemsOfListing rest) fun _ path => disassemble path
    | .plain "help" => help
    | .plain _ => misuse s!"unrecognized subcommand '{arg}'"
    | .long "version" none => version
    | .long "help" none => help
    | .short ('V' :: _) => version
    | .short ('h' :: _) => help
    | _ => misuse s!"unexpected argument '{arg}' found"

def Command.path? : Command → Option String
  | run o => some o.path
  | disassemble path => some path
  | _ => none

end LS8.CommandLine
