/-! Plain text: what is left of a text when everything is taken out that a terminal carries out and
does not show. These are the control characters other than white space, and control sequences, which
an escape character begins. A sequence may be unfinished where the text ends. -/

namespace LS8.Text

/-- Where a character stands: in the text proper, or in which part of a control sequence. -/
inductive Place where
  | text
  /-- Right after an escape character. -/
  | escape
  /-- In an escape sequence that has begun with a character from space to `/`. -/
  | intermediate
  /-- In a sequence such as the one that sets colours; a letter or the like ends it. -/
  | control
  /-- At the beginning of a string for the device. -/
  | deviceEntry
  | deviceParameters
  | deviceIntermediate
  /-- In a string that is nowhere shown. -/
  | string
  /-- In a command to the terminal's system; the bell ends it. -/
  | command
deriving DecidableEq, Repr

namespace Place

/-- The byte 9C ends a string even where it is a part of another character. -/
def endsString (c : Char) : Bool :=
  (String.utf8EncodeChar c).contains 0x9C

/-- Where the next character stands after this one. An escape character begins a new sequence
anywhere, and the characters U+0018 and U+001A break a sequence off. -/
def next (p : Place) (c : Char) : Place :=
  if c = '\x1b' then escape
  else if c = '\x18' || c = '\x1a' then text
  else match p with
  | text => text
  | escape =>
    if ' ' ≤ c && c ≤ '/' then intermediate
    else if c = '[' then control
    else if c = ']' then command
    else if c = 'P' then deviceEntry
    else if c = 'X' || c = '^' || c = '_' then string
    else if '0' ≤ c && c ≤ '~' then text
    else escape
  | intermediate => if '0' ≤ c && c ≤ '~' then text else intermediate
  | control => if '@' ≤ c && c ≤ '~' then text else control
  | deviceEntry =>
    if ' ' ≤ c && c ≤ '/' then deviceIntermediate
    else if '0' ≤ c && c ≤ '?' then deviceParameters
    else if '@' ≤ c && c ≤ '~' then string
    else deviceEntry
  | deviceParameters =>
    if ' ' ≤ c && c ≤ '/' then deviceIntermediate
    else if '<' ≤ c && c ≤ '~' then string
    else deviceParameters
  | deviceIntermediate => if '0' ≤ c && c ≤ '~' then string else deviceIntermediate
  | string => if endsString c then text else string
  | command => if c = '\x07' then text else command

/-- Whether a character is shown that stands here. Tabs, line feeds, form feeds and carriage returns
are shown in the short sequences too. -/
def shows (p : Place) (c : Char) : Bool :=
  if c = '\t' || c = '\n' || c = '\x0c' || c = '\r' then
    p = text || p = escape || p = intermediate || p = control
  else
    p = text && ' ' ≤ c && c ≠ '\x7f'

end Place

/-- What is shown of a text from a place on. White space that is shown within a sequence suspends
the sequence: text is shown up to the next character that is not, and there the sequence goes on,
unless a character beyond U+007F was among what was shown. -/
def plainFrom (p : Place) (suspended : Bool) : List Char → List Char
  | [] => []
  | c :: cs =>
    if (if suspended then .text else p).shows c then
      c :: plainFrom (if c ≤ '\x7f' then p else .text) true cs
    else
      plainFrom (p.next c) false cs

def plain (cs : List Char) : List Char :=
  plainFrom .text false cs

end LS8.Text
