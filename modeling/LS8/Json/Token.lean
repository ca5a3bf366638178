import LS8.Json
/-! The words of JSON text. `scan` reads the text one character at a time and keeps, beside the
tokens read so far, what it is in the middle of. -/

namespace LS8.Json

inductive Token where
  | openObject | closeObject | openArray | closeArray | colon | comma
  | str (s : String)
  /-- A number or one of the three names. -/
  | word (cs : List Char)
deriving DecidableEq, Repr

namespace Token

/-- What the scanner is in the middle of. Characters read are kept last first. -/
inductive Mode where
  | between
  | word (read : List Char)
  | text (read : List Char)
  /-- After a backslash. -/
  | escape (read : List Char)
  /-- In a code unit of which `left` hexadecimal digits are missing, perhaps after the first half of
  a pair. -/
  | unit (read : List Char) (half : Option Nat) (left value : Nat)
  /-- After the first half of a pair: a backslash has to follow. -/
  | half (read : List Char) (first : Nat)
  /-- And then the letter that announces the second half. -/
  | halfEscape (read : List Char) (first : Nat)
deriving DecidableEq, Repr

/-- The tokens so far, last first, and what comes after them. -/
structure Scanner where
  tokens : List Token
  mode : Mode
deriving DecidableEq, Repr

def hexValue? (c : Char) : Option Nat :=
  if c.isDigit then some (c.toNat - '0'.toNat)
  else if 'a' ≤ c ∧ c ≤ 'f' then some (c.toNat - 'a'.toNat + 10)
  else if 'A' ≤ c ∧ c ≤ 'F' then some (c.toNat - 'A'.toNat + 10)
  else none

def unescape? : Char → Option Char
  | '"' => some '"'
  | '\\' => some '\\'
  | '/' => some '/'
  | 'b' => some '\x08'
  | 'f' => some '\x0c'
  | 'n' => some '\n'
  | 'r' => some '\r'
  | 't' => some '\t'
  | _ => none

def isWordChar (c : Char) : Bool :=
  c.isAlphanum || c = '+' || c = '-' || c = '.'

def begin (tokens : List Token) (c : Char) : Option Scanner :=
  if c = ' ' || c = '\n' || c = '\r' || c = '\t' then some ⟨tokens, .between⟩
  else if c = '\x7b' then some ⟨openObject :: tokens, .between⟩
  else if c = '\x7d' then some ⟨closeObject :: tokens, .between⟩
  else if c = '[' then some ⟨openArray :: tokens, .between⟩
  else if c = ']' then some ⟨closeArray :: tokens, .between⟩
  else if c = ':' then some ⟨colon :: tokens, .between⟩
  else if c = ',' then some ⟨comma :: tokens, .between⟩
  else if c = '"' then some ⟨tokens, .text []⟩
  else if isWordChar c then some ⟨tokens, .word [c]⟩
  else none

/-- What follows a complete code unit. Two halves make one character, and a half alone is none. -/
def closeUnit (read : List Char) (half : Option Nat) (u : Nat) : Option Mode :=
  match half with
  | none =>
    if 0xD800 ≤ u ∧ u < 0xDC00 then some (.half read u)
    else if 0xDC00 ≤ u ∧ u < 0xE000 then none
    else some (.text (Char.ofNat u :: read))
  | some first =>
    if 0xDC00 ≤ u ∧ u < 0xE000 then
      some (.text (Char.ofNat (0x10000 + (first - 0xD800) * 0x400 + (u - 0xDC00)) :: read))
    else none

def advance (s : Scanner) (c : Char) : Option Scanner :=
  match s.mode with
  | .between => begin s.tokens c
  | .word read =>
    if isWordChar c then some ⟨s.tokens, .word (c :: read)⟩
    else begin (Token.word read.reverse :: s.tokens) c
  | .text read =>
    if c = '"' then some ⟨Token.str (String.ofList read.reverse) :: s.tokens, .between⟩
    else if c = '\\' then some ⟨s.tokens, .escape read⟩
    else if c.toNat < 0x20 then none
    else some ⟨s.tokens, .text (c :: read)⟩
  | .escape read =>
    if c = 'u' then some ⟨s.tokens, .unit read none 4 0⟩
    else (unescape? c).map fun e => ⟨s.tokens, .text (e :: read)⟩
  | .unit read half left value => do
    let d ← hexValue? c
    let value := value * 16 + d
    if left ≤ 1 then
      let mode ← closeUnit read half value
      return ⟨s.tokens, mode⟩
    else
      return ⟨s.tokens, .unit read half (left - 1) value⟩
  | .half read first => if c = '\\' then some ⟨s.tokens, .halfEscape read first⟩ else none
  | .halfEscape read first =>
    if c = 'u' then some ⟨s.tokens, .unit read (some first) 4 0⟩ else none

def scan (cs : List Char) : Option (List Token) := do
  let s ← cs.foldlM advance ⟨[], .between⟩
  match s.mode with
  | .between => some s.tokens.reverse
  | .word read => some (Token.word read.reverse :: s.tokens).reverse
  | _ => none

end Token

end LS8.Json
