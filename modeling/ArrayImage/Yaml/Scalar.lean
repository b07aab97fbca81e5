import ArrayImage.Text.Number
import ArrayImage.Yaml.Cursor

/-!
# ArrayImage.Yaml.Scalar

Scalars of a YAML text: plain ones, quoted ones, and blocks of lines.

Except in a literal block, a single line break between two parts of a scalar stands for a space,
and of several line breaks the first one is dropped. Functions that cross lines get fuel for each
character that is left.
-/

namespace ArrayImage
namespace Yaml

inductive ScalarStyle where
  | plain
  | quoted
  | literal
  | folded
deriving DecidableEq

/-- What a run of blanks and line breaks between two parts of a scalar stands for. -/
def fold (gap : List Char) : List Char :=
  match gap.filter isBreak with
  | [] => gap
  | ['\n'] => [' ']
  | '\n' :: more => more
  | breaks => breaks

/-! ## Plain scalars -/

def startsPlain (inFlow : Bool) : List Char → Bool
  | [] => false
  | c :: rest =>
    if c = '-' then !(rest.head?.any isBlank)
    else if c = '?' ∨ c = ':' then !inFlow && !startsGap rest
    else !isGap c && !isFlowIndicator c &&
      !(['#', '&', '*', '!', '|', '>', '\'', '"', '%', '@', '\x60'].contains c)

/-- A part of a plain scalar without gaps, and the text behind it. In a flow collection, a colon
right before a flow indicator is an error. -/
def plainPart? (inFlow : Bool) : List Char → Option (List Char × List Char)
  | [] => some ([], [])
  | c :: rest =>
    if isGap c || (c == ':' && startsGap rest) || (inFlow && isFlowIndicator c) then
      some ([], c :: rest)
    else if inFlow && c == ':' && rest.head?.any (fun d => isFlowIndicator d || d == '?') then none
    else (plainPart? inFlow rest).map fun (part, rest) => (c :: part, rest)

/-- A tab stands in a gap before column `floor`. The first line of the gap does not count. -/
def tabBefore (floor : Nat) (column : Option Nat) : List Char → Bool
  | [] => false
  | c :: rest =>
    if isBreak c then tabBefore floor (some 0) rest
    else
      match column with
      | none => tabBefore floor none rest
      | some n => (c == '\t' && n < floor) || tabBefore floor (some (n + 1)) rest

/-- The text of a plain scalar, whether the gap behind it has a line break, and the place behind
that gap. In a block, all lines but the first start at column `floor` or behind it. -/
def plain? (inFlow : Bool) (floor : Nat) :
    (fuel : Nat) → Cursor → Option (List Char × Bool × Cursor)
  | 0, _ => none
  | fuel + 1, c => do
    let (part, rest) ← plainPart? inFlow c.rest
    let c := c.past part rest
    let (gap, after) := c.span isGap
    if gap.isEmpty then return (part, false, c)
    guard (!tabBefore floor none gap)
    let broken := gap.any isBreak
    if after.atMarker || after.rest.head? == some '#' || (!inFlow && after.column < floor) then
      return (part, broken, after)
    match ← plain? inFlow floor fuel after with
    | ([], _, c) => return (part, broken, c)
    | (more, broken, c) => return (part ++ fold gap ++ more, broken, c)

/-! ## Quoted scalars -/

/-- The text between double quotes as it is written, and the text behind the closing quote. -/
def doubleQuoted? : List Char → Option (List Char × List Char)
  | [] => none
  | '"' :: rest => some ([], rest)
  | '\\' :: c :: rest => (doubleQuoted? rest).map fun (raw, rest) => ('\\' :: c :: raw, rest)
  | c :: rest => (doubleQuoted? rest).map fun (raw, rest) => (c :: raw, rest)

def singleQuoted? : List Char → Option (List Char × List Char)
  | [] => none
  | '\'' :: '\'' :: rest => (singleQuoted? rest).map fun (raw, rest) => ('\'' :: '\'' :: raw, rest)
  | '\'' :: rest => some ([], rest)
  | c :: rest => (singleQuoted? rest).map fun (raw, rest) => (c :: raw, rest)

/-- A line of a quoted text, other than the first one, starts with a marker. -/
def hasMarker : List Char → Bool
  | [] => false
  | c :: rest =>
    (isBreak c && startsMarker rest && rest.length > 3) ||
      hasMarker rest

/-- The character with these hexadecimal digits as its number. -/
def coded? (digits : List Char) : Option Char := do
  let n ← Text.hexNumber? digits
  guard n.isValidChar
  return Char.ofNat n

def escapes : List (Char × Char) :=
  [('0', '\x00'), ('a', '\x07'), ('b', '\x08'), ('t', '\t'), ('\t', '\t'), ('n', '\n'),
    ('v', '\x0b'), ('f', '\x0c'), ('r', '\r'), ('e', '\x1b'), (' ', ' '), ('"', '"'), ('/', '/'),
    ('\\', '\\'), ('N', '\u0085'), ('_', '\u00a0'), ('L', '\u2028'), ('P', '\u2029')]

/-- The text that stands between double quotes. `gap` holds the blanks and line breaks right before
the next character, last one first, and `join` says what they stand for. -/
def unescape? (join : List Char → List Char) (gap : List Char) : List Char → Option (List Char)
  | [] => some (join gap.reverse)
  | '\\' :: 'x' :: a :: b :: rest => do
    let c ← coded? [a, b]
    return join gap.reverse ++ c :: (← unescape? fold [] rest)
  | '\\' :: 'u' :: a :: b :: c :: d :: rest => do
    let c ← coded? [a, b, c, d]
    return join gap.reverse ++ c :: (← unescape? fold [] rest)
  | '\\' :: 'U' :: a :: b :: c :: d :: e :: f :: g :: h :: rest => do
    let c ← coded? [a, b, c, d, e, f, g, h]
    return join gap.reverse ++ c :: (← unescape? fold [] rest)
  | '\\' :: c :: rest => do
    if isBreak c then
      return join gap.reverse ++ (← unescape? (List.filter isBreak) [] rest)
    let meant ← escapes.lookup c
    return join gap.reverse ++ meant :: (← unescape? fold [] rest)
  | c :: rest => do
    guard (c ≠ '\\')
    if isGap c then unescape? join (c :: gap) rest
    else return join gap.reverse ++ c :: (← unescape? fold [] rest)

/-- The text that stands between single quotes. -/
def undouble (gap : List Char) : List Char → List Char
  | [] => fold gap.reverse
  | '\'' :: '\'' :: rest => fold gap.reverse ++ '\'' :: undouble [] rest
  | c :: rest =>
    if isGap c then undouble (c :: gap) rest else fold gap.reverse ++ c :: undouble [] rest

/-- The text of a quoted scalar, and the place behind it. -/
def quoted? (c : Cursor) : Option (List Char × Cursor) := do
  let start := c.next
  if c.rest.head? = some '"' then
    let (raw, rest) ← doubleQuoted? start.rest
    guard (!hasMarker raw)
    return (← unescape? fold [] raw, (start.past raw ('"' :: rest)).next)
  else
    let (raw, rest) ← singleQuoted? start.rest
    guard (!hasMarker raw)
    return (undouble [] raw, (start.past raw ('\'' :: rest)).next)

/-! ## Blocks of lines -/

/-- What becomes of the line breaks at the end of a block. -/
inductive Chomping where
  | strip
  | clip
  | keep

/-- The first line of a block: how it ends, and how far it is indented if that is said. -/
structure BlockHeader where
  chomping : Chomping
  indent : Option Nat

def chomping? (c : Cursor) : Option (Chomping × Cursor) :=
  match c.rest.head? with
  | some '+' => some (.keep, c.next)
  | some '-' => some (.strip, c.next)
  | _ => none

def indent? (c : Cursor) : Option (Nat × Cursor) :=
  match c.rest.head? with
  | some d => if d.isDigit then some (d.toNat - '0'.toNat, c.next) else none
  | none => none

def BlockHeader.read? (c : Cursor) : Option (BlockHeader × Cursor) := do
  let (first, c) := match chomping? c with
    | some (chomping, c) => (some chomping, c)
    | none => (none, c)
  let (indent, c) := match indent? c with
    | some (n, c) => (some n, c)
    | none => (none, c)
  guard (indent ≠ some 0)
  let (chomping, c) := match first, indent, chomping? c with
    | none, some _, some (chomping, c) => (chomping, c)
    | _, _, _ => (first.getD .clip, c)
  return (⟨chomping, indent⟩, ← c.endLine?)

/-- Pass empty lines and the indentation of the next line. The result has the line breaks, the
furthest column of these lines, and the place behind them. -/
def emptyLines? (indent : Option Nat) :
    (fuel deepest : Nat) → Cursor → Option (List Char × Nat × Cursor)
  | 0, _, _ => none
  | fuel + 1, deepest, c =>
    let spaces := (c.rest.takeWhile (· == ' ')).length
    let width := match indent with
      | none => spaces
      | some n => min spaces (n - c.column)
    let c : Cursor := ⟨c.rest.drop width, c.line, c.column + width, c.offset + width⟩
    let deepest := max deepest c.column
    match c.rest with
    | [] => some ([], deepest, c)
    | s :: _ =>
      if s = '\t' ∧ indent.all (c.column < ·) then none
      else if isBreak s then do
        let (breaks, deepest, c) ← emptyLines? indent fuel deepest c.next
        return (s :: breaks, deepest, c)
      else some ([], deepest, c)

/-- What stands between two lines of a block: the break at the end of the first one, and the breaks
of empty lines. Lines that start with a blank are never joined. -/
def joinLines (style : ScalarStyle) (afterBlank beforeBlank : Bool) (first more : List Char) :
    List Char :=
  if style = .folded ∧ first = ['\n'] ∧ !afterBlank ∧ !beforeBlank then
    if more.isEmpty then [' '] else more
  else first ++ more

/-- The lines of a block from this place on, behind a line break `first` and empty lines `more`. The
result ends with what stands behind the last line. -/
def blockLines? (style : ScalarStyle) (chomping : Chomping) (indent : Nat) :
    (fuel : Nat) → (afterBlank : Bool) → (first more : List Char) → Cursor →
      Option (List Char × Cursor)
  | 0, _, _, _, _ => none
  | fuel + 1, afterBlank, first, more, c =>
    if c.column = indent ∧ !c.rest.isEmpty then do
      let beforeBlank := c.rest.head?.any isBlank
      let (line, c) := c.span (!isBreak ·)
      let lineEnd := c.rest.take 1
      let (breaks, _, c) ← emptyLines? (some indent) (fuel + 1) 0 c.next
      let (rest, c) ← blockLines? style chomping indent fuel beforeBlank lineEnd breaks c
      return (joinLines style afterBlank beforeBlank first more ++ line ++ rest, c)
    else
      match chomping with
      | .strip => some ([], c)
      | .clip => some (first, c)
      | .keep => some (first ++ more, c)

/-- The text of a block behind its indicator, and the place behind it. Inside a collection that
takes columns from `floor - 1` on, a block is indented by one column at least. -/
def block? (style : ScalarStyle) (floor fuel : Nat) (c : Cursor) : Option (List Char × Cursor) := do
  let (header, c) ← BlockHeader.read? c
  let given := header.indent.map (floor - 1 + ·)
  let (breaks, deepest, c) ← emptyLines? given fuel 0 c
  let indent := given.getD (max deepest (max floor 1))
  blockLines? style header.chomping indent fuel false [] breaks c

end Yaml
end ArrayImage
