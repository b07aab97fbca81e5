/-!
# ArrayImage.Yaml.Cursor

The text of a YAML stream, and places in it.

All line breaks of a text are made the same before it is read, so that only the line feed and the
two Unicode separators, which keep their identity in values, are left. A `Cursor` is the rest of a
text together with its line, its column, and the number of bytes before it in its line.
-/

namespace ArrayImage
namespace Yaml

/-! ## Characters -/

def isBlank (c : Char) : Bool :=
  c == ' ' || c == '\t'

/-- A line break, once all line breaks have been made the same. -/
def isBreak (c : Char) : Bool :=
  c == '\n' || c == '\u2028' || c == '\u2029'

def isGap (c : Char) : Bool :=
  isBlank c || isBreak c

/-- A character of anchor names, tag handles and directive names. -/
def isNameChar (c : Char) : Bool :=
  ('0' ≤ c && c ≤ '9') || ('a' ≤ c && c ≤ 'z') || ('A' ≤ c && c ≤ 'Z') || c == '_' || c == '-'

/-- One of the characters that structure flow collections. -/
def isFlowIndicator (c : Char) : Bool :=
  [',', '[', ']', '\x7b', '\x7d'].contains c

/-- A character that a stream may hold. -/
def isAllowed (c : Char) : Bool :=
  let n := c.toNat
  n == 0x09 || n == 0x0A || n == 0x0D || (0x20 ≤ n && n ≤ 0x7E) || n == 0x85 ||
    (0xA0 ≤ n && n ≤ 0xFFFD) || 0x10000 ≤ n

/-- Text with a line feed for each carriage return, with or without a line feed behind it, and for
each next-line character. -/
def unifyBreaks : List Char → List Char
  | [] => []
  | '\r' :: '\n' :: rest => '\n' :: unifyBreaks rest
  | c :: rest => (if c = '\r' ∨ c = '\u0085' then '\n' else c) :: unifyBreaks rest

/-- The characters of a stream. A stream with a character that is not allowed has none. -/
def characters? (text : String) : Option (List Char) :=
  if text.toList.all isAllowed then some (unifyBreaks text.toList) else none

/-- The text ends here, or a blank or a line break comes next. -/
def startsGap : List Char → Bool
  | [] => true
  | c :: _ => isGap c

def startsBreak : List Char → Bool
  | [] => true
  | c :: _ => isBreak c

/-- The text starts with a marker between documents. -/
def startsMarker (cs : List Char) : Bool :=
  match cs with
  | '-' :: '-' :: '-' :: rest => startsGap rest
  | '.' :: '.' :: '.' :: rest => startsGap rest
  | _ => false

/-! ## Places -/

/-- A place in a text. -/
structure Cursor where
  rest : List Char
  line : Nat
  /-- The number of characters before the place in its line. -/
  column : Nat
  /-- The number of bytes that these characters take. -/
  offset : Nat

namespace Cursor

/-- The place behind the characters `seen`, where `rest` is left. -/
def past (c : Cursor) : (seen rest : List Char) → Cursor
  | [], rest => { c with rest }
  | s :: seen, rest =>
    if isBreak s then past ⟨c.rest, c.line + 1, 0, 0⟩ seen rest
    else past ⟨c.rest, c.line, c.column + 1, c.offset + s.utf8Size⟩ seen rest

def next (c : Cursor) : Cursor :=
  match c.rest with
  | [] => c
  | s :: rest => c.past [s] rest

def eat? (c : Cursor) (expected : Char) : Option Cursor :=
  if c.rest.head? = some expected then some c.next else none

/-- The longest run of characters with a property, and the place behind it. -/
def span (c : Cursor) (p : Char → Bool) : List Char × Cursor :=
  let (seen, rest) := c.rest.span p
  (seen, c.past seen rest)

def skipWhile (c : Cursor) (p : Char → Bool) : Cursor :=
  (c.span p).2

/-- The place behind a byte order mark at the start of a line, if one stands here. It takes a
column. -/
def skipMark (c : Cursor) : Cursor :=
  if c.column = 0 ∧ c.rest.head? = some '\uFEFF' then c.next else c

/-- The place behind a comment, if one starts here. -/
def skipComment (c : Cursor) : Cursor :=
  if c.rest.head? = some '#' then c.skipWhile (!isBreak ·) else c

/-- The place in the next line, if this one is over but for blanks and a comment. -/
def endLine? (c : Cursor) : Option Cursor :=
  let c := (c.skipWhile isBlank).skipComment
  if startsBreak c.rest then some c.next else none

def atMarker (c : Cursor) : Bool :=
  c.column == 0 && startsMarker c.rest

end Cursor
end Yaml
end ArrayImage
