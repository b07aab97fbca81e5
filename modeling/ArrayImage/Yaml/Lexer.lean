import ArrayImage.Yaml.Token

/-!
# ArrayImage.Yaml.Lexer

From a YAML text to its tokens.

Blocks open where the text moves to a deeper column and close where it moves back. A key without a
question mark is known as a key only by the colon behind it, so each place where such a key may
start is kept, one for every open flow collection and one for the block around them, until the
colon comes or the place is too far back.
-/

namespace ArrayImage
namespace Yaml

/-- A place where a key may have started. -/
structure KeyPlace where
  /-- The key must be there, since the block goes on at its column. -/
  required : Bool
  /-- The number of tokens before the key. -/
  index : Nat
  line : Nat
  column : Nat
  offset : Nat

/-- The state of reading: the place, the tokens before it, and what is open there. -/
structure Lexer where
  cursor : Cursor
  tokens : Array Token
  /-- One more than the column of the innermost block, or zero. -/
  floor : Nat
  /-- The same for the blocks around it, innermost first. -/
  floors : List Nat
  /-- Where a key of the innermost collection may have started. -/
  key : Option KeyPlace
  /-- The same for the collections around each open flow collection, innermost first. -/
  outerKeys : List (Option KeyPlace)
  /-- A key may start here. -/
  keyAllowed : Bool

namespace Lexer

def start (text : List Char) : Lexer :=
  ⟨⟨text, 0, 0, 0⟩, #[], 0, [], none, [], true⟩

/-- A flow collection is open. -/
def inFlow (s : Lexer) : Bool :=
  !s.outerKeys.isEmpty

/-- Add a token and go to the place behind it. -/
def push (s : Lexer) (t : Token) (behind : Cursor) : Lexer :=
  { s with tokens := s.tokens.push t, cursor := behind }

/-! ## Blocks and keys -/

/-- Open a block at a column that is deeper than the innermost block. Its token comes before token
number `index`. -/
def openBlock (s : Lexer) (column index : Nat) (t : Token) : Lexer :=
  if s.inFlow ∨ column < s.floor then s
  else
    { s with
      tokens := s.tokens.insertIdxIfInBounds index t
      floor := column + 1
      floors := s.floor :: s.floors }

/-- Close the blocks with a floor above `limit`. -/
def closeBlocks (limit : Nat) (tokens : Array Token) (floor : Nat) :
    List Nat → Array Token × Nat × List Nat
  | [] => (tokens, floor, [])
  | outer :: floors =>
    if limit < floor then closeBlocks limit (tokens.push .blockEnd) outer floors
    else (tokens, floor, outer :: floors)

/-- Close the blocks that end before a line with this floor. -/
def closeTo (s : Lexer) (limit : Nat) : Lexer :=
  if s.inFlow then s
  else
    let (tokens, floor, floors) := closeBlocks limit s.tokens s.floor s.floors
    { s with tokens, floor, floors }

/-- Give up a place for a key. A required key cannot be given up. -/
def dropKey? (s : Lexer) : Option Lexer :=
  if s.key.any (·.required) then none else some { s with key := none }

/-- Keep this place for a key, if one may start here. -/
def keepKey? (s : Lexer) : Option Lexer :=
  if s.keyAllowed then do
    let s ← s.dropKey?
    let required := !s.inFlow && s.floor == s.cursor.column + 1
    let c := s.cursor
    return { s with key := some ⟨required, s.tokens.size, c.line, c.column, c.offset⟩ }
  else some s

/-- A key ends in its own line and within 1024 bytes. -/
def freshKey? (c : Cursor) (key : Option KeyPlace) : Option (Option KeyPlace) :=
  match key with
  | none => some none
  | some k =>
    if k.line = c.line ∧ c.offset ≤ k.offset + 1024 then some (some k)
    else if k.required then none
    else some none

/-- Give up the places for keys that are too far back. -/
def dropStaleKeys? (s : Lexer) : Option Lexer := do
  let key ← freshKey? s.cursor s.key
  let outerKeys ← s.outerKeys.mapM (freshKey? s.cursor)
  return { s with key, outerKeys }

/-! ## Tokens -/

/-- Pass blanks, comments and line breaks. Where a key of a block may start, tabs are no blanks. -/
def skipToToken : (fuel : Nat) → Lexer → Lexer
  | 0, s => s
  | fuel + 1, s =>
    let tabs := s.inFlow || !s.keyAllowed
    let c := (s.cursor.skipMark.skipWhile fun c => c == ' ' || (tabs && c == '\t')).skipComment
    if c.rest.head?.any isBreak then
      skipToToken fuel { s with cursor := c.next, keyAllowed := s.keyAllowed || !s.inFlow }
    else { s with cursor := c }

/-- Between documents no block is open and no key is due. -/
def leaveDocument? (s : Lexer) : Option Lexer := do
  let s ← (s.closeTo 0).dropKey?
  return { s with keyAllowed := false }

def openFlow? (s : Lexer) (t : Token) : Option Lexer := do
  let s ← s.keepKey?
  return { s.push t s.cursor.next with
    key := none, outerKeys := s.key :: s.outerKeys, keyAllowed := true }

def closeFlow? (s : Lexer) (t : Token) : Option Lexer := do
  let s ← s.dropKey?
  let (key, outerKeys) := match s.outerKeys with
    | [] => (none, [])
    | key :: outerKeys => (key, outerKeys)
  return { s.push t s.cursor.next with key, outerKeys, keyAllowed := false }

def flowEntry? (s : Lexer) : Option Lexer := do
  let s ← s.dropKey?
  return { s.push .flowEntry s.cursor.next with keyAllowed := true }

/-- A token that opens a block at its own column unless one is open there. -/
def blockToken? (s : Lexer) (opening : Token) : Option Lexer :=
  if s.inFlow then some s
  else if s.keyAllowed then some (s.openBlock s.cursor.column s.tokens.size opening)
  else none

def blockEntry? (s : Lexer) : Option Lexer := do
  let s ← (← s.blockToken? .blockSequenceStart).dropKey?
  return { s.push .blockEntry s.cursor.next with keyAllowed := true }

def key? (s : Lexer) : Option Lexer := do
  let s ← (← s.blockToken? .blockMappingStart).dropKey?
  return { s.push .key s.cursor.next with keyAllowed := !s.inFlow }

/-- A colon. It makes a key of what stands before it, if that may be one. -/
def value? (s : Lexer) : Option Lexer :=
  match s.key with
  | some k =>
    let s := { s with tokens := s.tokens.insertIdxIfInBounds k.index .key, key := none }
    let s := s.openBlock k.column k.index .blockMappingStart
    some { s.push .value s.cursor.next with keyAllowed := false }
  | none => do
    let s ← s.blockToken? .blockMappingStart
    return { s.push .value s.cursor.next with keyAllowed := !s.inFlow }

def name? (s : Lexer) (t : String → Token) : Option Lexer := do
  let s ← s.keepKey?
  let (name, c) ← anchorName? s.cursor.next
  return { s.push (t name) c with keyAllowed := false }

def tagged? (s : Lexer) : Option Lexer := do
  let s ← s.keepKey?
  let (t, c) ← tag? s.inFlow s.cursor
  return { s.push t c with keyAllowed := false }

def quotedScalar? (s : Lexer) : Option Lexer := do
  let s ← s.keepKey?
  let (text, c) ← quoted? s.cursor
  return { s.push (.scalar .quoted (String.ofList text)) c with keyAllowed := false }

/-- A plain scalar. Behind a line break, a key may start. -/
def plainScalar? (fuel : Nat) (s : Lexer) : Option Lexer := do
  let s ← s.keepKey?
  let (text, broken, c) ← plain? s.inFlow s.floor fuel s.cursor
  return { s.push (.scalar .plain (String.ofList text)) c with keyAllowed := broken }

def blockScalar? (fuel : Nat) (s : Lexer) (style : ScalarStyle) : Option Lexer := do
  let s ← s.dropKey?
  let (text, c) ← block? style s.floor fuel s.cursor.next
  return { s.push (.scalar style (String.ofList text)) c with keyAllowed := true }

def marker? (s : Lexer) (t : Token) : Option Lexer := do
  let s ← s.leaveDocument?
  return s.push t s.cursor.next.next.next

def directiveToken? (s : Lexer) : Option Lexer := do
  let s ← s.leaveDocument?
  let (t, c) ← directive? s.cursor.next
  return s.push t c

def finish? (s : Lexer) : Option Lexer := do
  let s ← s.leaveDocument?
  return s.push .streamEnd s.cursor

/-- The token at this place. -/
def token? (fuel : Nat) (s : Lexer) : Option Lexer :=
  match s.cursor.rest with
  | [] => s.finish?
  | c :: rest =>
    let spaced := startsGap rest
    if s.cursor.column = 0 ∧ c = '%' then s.directiveToken?
    else if s.cursor.atMarker then s.marker? (if c = '-' then .documentStart else .documentEnd)
    else if c = '[' then s.openFlow? .flowSequenceStart
    else if c = '\x7b' then s.openFlow? .flowMappingStart
    else if c = ']' then s.closeFlow? .flowSequenceEnd
    else if c = '\x7d' then s.closeFlow? .flowMappingEnd
    else if c = ',' then s.flowEntry?
    else if c = '-' ∧ spaced then s.blockEntry?
    else if c = '?' ∧ (s.inFlow ∨ spaced) then s.key?
    else if c = ':' ∧ (s.inFlow ∨ spaced) then s.value?
    else if c = '*' then s.name? .alias
    else if c = '&' then s.name? .anchor
    else if c = '!' then s.tagged?
    else if c = '|' ∧ !s.inFlow then s.blockScalar? fuel .literal
    else if c = '>' ∧ !s.inFlow then s.blockScalar? fuel .folded
    else if c = '\'' ∨ c = '"' then s.quotedScalar?
    else if startsPlain s.inFlow (c :: rest) then s.plainScalar? fuel
    else none

/-- The next token and what goes before it. -/
def step? (fuel : Nat) (s : Lexer) : Option Lexer := do
  let s ← (s.skipToToken fuel).dropStaleKeys?
  (s.closeTo (s.cursor.column + 1)).token? fuel

/-- All tokens from here on. Each step but the last passes a character. -/
def run? : (fuel : Nat) → Lexer → Option (List Token)
  | 0, _ => none
  | fuel + 1, s => do
    let s ← s.step? (fuel + 1)
    if s.tokens.back? = some .streamEnd then return s.tokens.toList else run? fuel s

end Lexer

/-- The tokens of a stream. -/
def tokens? (text : String) : Option (List Token) := do
  let cs ← characters? text
  (Lexer.start cs).run? (cs.length + 2)

end Yaml
end ArrayImage
