import ArrayImage.Yaml.Scalar

/-!
# ArrayImage.Yaml.Token

The tokens of a YAML stream, and how those that take a single line are read: anchors, tags and
directives.

The three tokens about blocks, and the keys of mappings without a question mark, have no text of
their own. They follow from indentation and from the colons behind the keys.
-/

namespace ArrayImage
namespace Yaml

/-- The text of a tag. Bytes that are written with percent signs need not stand for characters. -/
inductive TagText where
  | readable (text : String)
  | unreadable
deriving DecidableEq

def TagText.append : TagText → TagText → TagText
  | readable a, readable b => readable (a ++ b)
  | _, _ => unreadable

/-- The text of characters, some of which are unreadable. It ends before the first NUL. -/
def TagText.ofChars (cs : List (Option Char)) : TagText :=
  match (cs.takeWhile (· ≠ some '\x00')).mapM id with
  | some cs => readable (String.ofList cs)
  | none => unreadable

/-- A token. -/
inductive Token where
  | streamEnd
  | documentStart
  | documentEnd
  /-- The version that a stream is written for. -/
  | version (major minor : Nat)
  /-- A handle of tags and the text that it stands for. -/
  | tagHandle (handle : String) (text : TagText)
  | blockSequenceStart
  | blockMappingStart
  | blockEnd
  | flowSequenceStart
  | flowSequenceEnd
  | flowMappingStart
  | flowMappingEnd
  /-- The dash before an item. -/
  | blockEntry
  /-- The comma between items. -/
  | flowEntry
  | key
  | value
  | alias (name : String)
  | anchor (name : String)
  | tag (handle : String) (text : TagText)
  | scalar (style : ScalarStyle) (text : String)
deriving DecidableEq

/-! ## Anchors -/

/-- The name of an anchor or an alias behind its indicator, and the place behind it. -/
def anchorName? (c : Cursor) : Option (String × Cursor) := do
  let (name, c) := c.span isNameChar
  guard (!name.isEmpty)
  guard (startsGap c.rest || c.rest.head?.any ['?', ':', ',', ']', '\x7d', '%', '@', '\x60'].contains)
  return (String.ofList name, c)

/-! ## Tags -/

/-- A character of a tag. Commas and brackets need a tag between angle brackets. -/
def isTagChar (bracketed : Bool) (c : Char) : Bool :=
  isNameChar c || ";/?:@&=+$.%!~*'()".toList.contains c || (bracketed && [',', '[', ']'].contains c)

/-- A byte that is written with a percent sign, and the text behind it. -/
def percentByte? : List Char → Option (Nat × List Char)
  | '%' :: a :: b :: rest => do
    let n ← Text.hexNumber? [a, b]
    return (n, rest)
  | _ => none

/-- So many bytes that continue a character, and the text behind them. -/
def moreBytes? : Nat → List Char → Option (List Nat × List Char)
  | 0, cs => some ([], cs)
  | n + 1, cs => do
    let (b, rest) ← percentByte? cs
    guard (b / 64 = 2)
    let (bs, rest) ← moreBytes? n rest
    return (b :: bs, rest)

/-- The character of a first byte and the bytes behind it, if they stand for one. -/
def charOfBytes? (first : Nat) (more : List Nat) : Option Char :=
  let (high, least) := match more.length with
    | 0 => (first, 0)
    | 1 => (first % 32, 0x80)
    | 2 => (first % 16, 0x800)
    | _ => (first % 8, 0x10000)
  let n := more.foldl (fun n b => 64 * n + b % 64) high
  if least ≤ n ∧ n.isValidChar then some (Char.ofNat n) else none

/-- A character that is written with percent signs, and the text behind it. -/
def percentChar? (cs : List Char) : Option (Option Char × List Char) := do
  let (first, rest) ← percentByte? cs
  let count ←
    if first < 0x80 then some 0
    else if first / 32 = 6 then some 1
    else if first / 16 = 14 then some 2
    else if first / 8 = 30 then some 3
    else none
  let (more, rest) ← moreBytes? count rest
  return (charOfBytes? first more, rest)

def tagChars? : (fuel : Nat) → List Char → Option (List (Option Char))
  | _, [] => some []
  | 0, _ :: _ => none
  | fuel + 1, '%' :: rest => do
    let (c, rest) ← percentChar? ('%' :: rest)
    return c :: (← tagChars? fuel rest)
  | fuel + 1, c :: rest => (tagChars? fuel rest).map (some c :: ·)

/-- The text of a tag from here on, behind what was read of it before, and the place behind it. -/
def tagText? (bracketed : Bool) (start : List Char) (c : Cursor) : Option (TagText × Cursor) := do
  let (raw, c) := c.span (isTagChar bracketed)
  return (.ofChars (start.map some ++ (← tagChars? raw.length raw)), c)

def tagText1? (bracketed : Bool) (c : Cursor) : Option (TagText × Cursor) := do
  guard (c.rest.head?.any (isTagChar bracketed))
  tagText? bracketed [] c

/-- The handle that a tag starts with, and the place behind it. Without a second exclamation mark
it is only the start of the tag's own text. -/
def handle? (c : Cursor) : Option (List Char × Cursor) := do
  let c ← c.eat? '!'
  let (name, c) := c.span isNameChar
  match c.eat? '!' with
  | some c => return ('!' :: name ++ ['!'], c)
  | none => return ('!' :: name, c)

def tag? (inFlow : Bool) (c : Cursor) : Option (Token × Cursor) := do
  let (token, c) ←
    if c.next.rest.head? = some '<' then do
      let (text, c) ← tagText1? true c.next.next
      pure (Token.tag "" text, ← c.eat? '>')
    else do
      let (start, c) ← handle? c
      if start.length ≥ 2 ∧ start.getLast? = some '!' then
        let (text, c) ← tagText1? false c
        pure (Token.tag (String.ofList start) text, c)
      else
        let (text, c) ← tagText? false (start.drop 1) c
        if text = .readable "" then pure (Token.tag "" (.readable "!"), c)
        else pure (Token.tag "!" text, c)
  guard ((inFlow && c.rest.head? == some ',') || startsGap c.rest)
  return (token, c)

/-! ## Directives -/

/-- A number of at most nine digits, and the place behind it. -/
def versionNumber? (c : Cursor) : Option (Nat × Cursor) := do
  let (digits, c) := c.span Char.isDigit
  guard (!digits.isEmpty ∧ digits.length ≤ 9)
  return (Text.decimal digits, c)

/-- The version of a version directive. -/
def version? (c : Cursor) : Option (Token × Cursor) := do
  let (major, c) ← versionNumber? (c.skipWhile isBlank)
  let (minor, c) ← versionNumber? (← c.eat? '.')
  return (.version major minor, c)

def tagHandle? (c : Cursor) : Option (Token × Cursor) := do
  let (handle, c) ← handle? (c.skipWhile isBlank)
  guard (handle.getLast? = some '!')
  guard (c.rest.head?.any isBlank)
  let (text, c) ← tagText1? true (c.skipWhile isBlank)
  guard (startsGap c.rest)
  return (.tagHandle (String.ofList handle) text, c)

/-- A directive behind its percent sign, and the place in the next line. -/
def directive? (c : Cursor) : Option (Token × Cursor) := do
  let (name, c) := c.span isNameChar
  guard (startsGap c.rest)
  let (token, c) ← match String.ofList name with
    | "YAML" => version? c
    | "TAG" => tagHandle? c
    | _ => none
  return (token, ← c.endLine?)

end Yaml
end ArrayImage
