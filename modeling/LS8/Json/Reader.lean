import LS8.Json.Token
/-! Reading JSON. The tokens are taken one at a time; what is still open around the present place is
kept on a stack. -/

namespace LS8.Json

/-- The rest of a number after its whole part: a fraction, an exponent or both. -/
def isFractionExponent (cs : List Char) : Bool :=
  let (fractionOk, rest) := match cs with
    | '.' :: r => let (ds, rest) := r.span Char.isDigit; (!ds.isEmpty, rest)
    | r => (true, r)
  let exponentOk := match rest with
    | [] => true
    | e :: r =>
      let r := match r with
        | s :: t => if s = '+' || s = '-' then t else s :: t
        | [] => []
      (e = 'e' || e = 'E') && !r.isEmpty && r.all Char.isDigit
  fractionOk && exponentOk

def ofWord? (cs : List Char) : Option Json :=
  if cs = ['n', 'u', 'l', 'l'] then some null
  else if cs = ['t', 'r', 'u', 'e'] then some (bool true)
  else if cs = ['f', 'a', 'l', 's', 'e'] then some (bool false)
  else
    let (negative, body) := match cs with
      | '-' :: r => (true, r)
      | r => (false, r)
    let (whole, rest) := body.span Char.isDigit
    if whole = [] || (whole.head? = some '0' && whole.length ≠ 1) then none
    else if rest = [] then
      let n := Nat.ofDigitChars 10 whole 0
      if negative then some (if n = 0 then decimal (String.ofList cs) else int (-n))
      else some (int n)
    else if isFractionExponent rest then some (decimal (String.ofList cs))
    else none

/-- Something still open: an array with the items before the present one, last first, or an object
with the fields before the present one and the present one's name. -/
inductive Frame where
  | items (before : List Json)
  | fields (before : List (String × Json)) (key : String)

inductive Place where
  | value (stack : List Frame)
  /-- Just inside an array. -/
  | valueOrClose (stack : List Frame)
  /-- After a comma in an object. -/
  | key (before : List (String × Json)) (stack : List Frame)
  /-- Just inside an object. -/
  | keyOrClose (stack : List Frame)
  | colon (before : List (String × Json)) (key : String) (stack : List Frame)
  /-- After a value. -/
  | after (v : Json) (stack : List Frame)

namespace Place

def begin (stack : List Frame) : Token → Option Place
  | .openObject => some (keyOrClose stack)
  | .openArray => some (valueOrClose stack)
  | .str s => some (after (.str s) stack)
  | .word cs => (ofWord? cs).map (after · stack)
  | _ => none

def advance : Place → Token → Option Place
  | value stack, t => begin stack t
  | valueOrClose stack, .closeArray => some (after (arr []) stack)
  | valueOrClose stack, t => begin (.items [] :: stack) t
  | key before stack, .str k => some (colon before k stack)
  | keyOrClose stack, .str k => some (colon [] k stack)
  | keyOrClose stack, .closeObject => some (after (obj []) stack)
  | colon before k stack, .colon => some (value (.fields before k :: stack))
  | after v (.items before :: stack), .comma => some (value (.items (v :: before) :: stack))
  | after v (.items before :: stack), .closeArray => some (after (arr (v :: before).reverse) stack)
  | after v (.fields before k :: stack), .comma => some (key (put before k v) stack)
  | after v (.fields before k :: stack), .closeObject => some (after (obj (put before k v)) stack)
  | _, _ => none

end Place

def ofTokens? (ts : List Token) : Option Json := do
  match ← ts.foldlM Place.advance (Place.value []) with
  | .after v [] => some v
  | _ => none

def parse? (s : String) : Option Json := do
  ofTokens? (← Token.scan s.toList)

end LS8.Json
