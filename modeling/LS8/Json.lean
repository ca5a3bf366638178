/-! JSON values and how they are written: on one line, or indented by two spaces a level with every
item on a line of its own. A number keeps its value only if it is written as an integer; every other
number keeps its spelling. The fields of an object are in the order they were first given, under
distinct names, if they were put there by `put`. -/

namespace LS8

inductive Json where
  | null
  | bool (b : Bool)
  | int (n : Int)
  /-- A number with a fraction, an exponent or a sign before zero. -/
  | decimal (spelling : String)
  | str (s : String)
  | arr (items : List Json)
  | obj (fields : List (String × Json))
deriving Inhabited

namespace Json

/-- The fields with one more. A name that is there already gets the new value in its old place. -/
def put (fields : List (String × Json)) (key : String) (v : Json) : List (String × Json) :=
  match fields with
  | [] => [(key, v)]
  | (k, old) :: rest => if k = key then (k, v) :: rest else (k, old) :: put rest key v

def ofBytes (bytes : List UInt8) : Json :=
  arr (bytes.map fun b => int b.toNat)

def escape (c : Char) : String :=
  if c = '"' then "\\\""
  else if c = '\\' then "\\\\"
  else if c = '\n' then "\\n"
  else if c = '\r' then "\\r"
  else if c = '\t' then "\\t"
  else if c = '\x08' then "\\b"
  else if c = '\x0c' then "\\f"
  else if c.toNat < 0x20 then
    "\\u00" ++ String.ofList [Nat.digitChar (c.toNat / 16), Nat.digitChar (c.toNat % 16)]
  else c.toString

def quoted (s : String) : String :=
  s.toList.foldl (fun out c => out ++ escape c) "\"" ++ "\""

mutual

def compact : Json → String
  | null => "null"
  | bool b => if b then "true" else "false"
  | int n => toString n
  | decimal s => s
  | str s => quoted s
  | arr items => "[" ++ compactItems items ++ "]"
  | obj fields => "\x7b" ++ compactFields fields ++ "\x7d"

def compactItems : List Json → String
  | [] => ""
  | [v] => v.compact
  | v :: rest => v.compact ++ "," ++ compactItems rest

def compactFields : List (String × Json) → String
  | [] => ""
  | [(k, v)] => quoted k ++ ":" ++ v.compact
  | (k, v) :: rest => quoted k ++ ":" ++ v.compact ++ "," ++ compactFields rest

end

def indent (level : Nat) : String :=
  "".pushn ' ' (2 * level)

mutual

/-- The value over several lines, as part of a text at the given level. -/
def prettyAt (level : Nat) : Json → String
  | null => "null"
  | bool b => if b then "true" else "false"
  | int n => toString n
  | decimal s => s
  | str s => quoted s
  | arr [] => "[]"
  | arr (v :: rest) =>
    "[\n" ++ indent (level + 1) ++ v.prettyAt (level + 1) ++ prettyItems (level + 1) rest ++
      "\n" ++ indent level ++ "]"
  | obj [] => "\x7b\x7d"
  | obj ((k, v) :: rest) =>
    "\x7b\n" ++ indent (level + 1) ++ quoted k ++ ": " ++ v.prettyAt (level + 1) ++
      prettyFields (level + 1) rest ++ "\n" ++ indent level ++ "\x7d"

/-- The items after the first. -/
def prettyItems (level : Nat) : List Json → String
  | [] => ""
  | v :: rest => ",\n" ++ indent level ++ v.prettyAt level ++ prettyItems level rest

/-- The fields after the first. -/
def prettyFields (level : Nat) : List (String × Json) → String
  | [] => ""
  | (k, v) :: rest =>
    ",\n" ++ indent level ++ quoted k ++ ": " ++ v.prettyAt level ++ prettyFields level rest

end

def pretty (v : Json) : String :=
  v.prettyAt 0

end Json

end LS8
