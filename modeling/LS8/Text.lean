/-! Sets of characters as ranges of code points, white space, and the lines of a byte sequence. White
space is what has the Unicode property White_Space, which is more than `Char.isWhitespace` knows.
Every line feed ends a line, together with one carriage return right before it; what stands after
the last line feed is a line too, unless it is empty. -/

namespace LS8.Text

/-- Ranges of code points, both ends included. -/
abbrev Ranges := List (Nat × Nat)

def Ranges.contains (rs : Ranges) (c : Char) : Bool :=
  rs.any fun (lo, hi) => lo ≤ c.toNat && c.toNat ≤ hi

def blankRanges : Ranges :=
  [(0x9, 0xD), (0x20, 0x20), (0x85, 0x85), (0xA0, 0xA0), (0x1680, 0x1680), (0x2000, 0x200A),
    (0x2028, 0x2029), (0x202F, 0x202F), (0x205F, 0x205F), (0x3000, 0x3000)]

def isBlank (c : Char) : Bool :=
  blankRanges.contains c

def trim (cs : List Char) : List Char :=
  ((cs.dropWhile isBlank).reverse.dropWhile isBlank).reverse

def dropReturn (line : List UInt8) : List UInt8 :=
  if line.getLast? = some 13 then line.dropLast else line

def lines (bytes : List UInt8) : List (List UInt8) :=
  let parts := bytes.splitOn 10
  parts.dropLast.map dropReturn ++ parts.getLast?.toList.filter (!·.isEmpty)

def ofUtf8? (bytes : List UInt8) : Option String :=
  String.fromUTF8? ⟨bytes.toArray⟩

end LS8.Text
