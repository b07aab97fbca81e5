import ArrayImage.Yaml.Lexer
import ArrayImage.Yaml.Node

/-!
# ArrayImage.Yaml.Reader

From the tokens of a YAML stream to the node of its document.

A stream has one document. Between tokens an empty node stands where the grammar has room for a
node and none is written.
-/

namespace ArrayImage
namespace Yaml

/-- What is left to read, and the names that were declared before. -/
structure Source where
  tokens : List Token
  /-- The handles of tags and the texts that they stand for. -/
  handles : List (String × TagText)
  /-- The names of anchors, each with its latest number. -/
  anchors : List (String × Nat)

/-- A step of reading. -/
abbrev Reading := StateT Source Option

namespace Reading

def peek : Reading Token := fun s =>
  some (s.tokens.headD .streamEnd, s)

def skip : Reading Unit := fun s =>
  some ((), { s with tokens := s.tokens.tail })

def eat (t : Token) : Reading Unit := do
  guard ((← peek) = t)
  skip

/-! ## Names -/

/-- The number of a new anchor. It is the number of different names before. -/
def declare (name : String) : Reading Nat := fun s =>
  let number := s.anchors.length
  some (number, { s with anchors := (name, number) :: s.anchors.filter (·.1 ≠ name) })

/-- The number of a declared anchor. -/
def anchored (name : String) : Reading Nat := do
  match (← get).anchors.lookup name with
  | some number => return number
  | none => failure

/-- The text of a tag, with its handle replaced by what it stands for. -/
def resolve (handle : String) (text : TagText) : Reading TagText := do
  if handle.isEmpty then return text
  match (← get).handles.lookup handle with
  | some start => return start.append text
  | none => failure

def anchor? : Reading (Option Nat) := do
  match ← peek with
  | .anchor name =>
    skip
    some <$> declare name
  | _ => return none

def tag? : Reading (Option TagText) := do
  match ← peek with
  | .tag handle text =>
    skip
    some <$> resolve handle text
  | _ => return none

/-- What stands before the content of a node. A tag may stand on either side of an anchor. -/
def properties : Reading Properties := do
  match ← anchor? with
  | some anchor => return ⟨anchor, ← tag?⟩
  | none =>
    match ← tag? with
    | some tag => return ⟨← anchor?, tag⟩
    | none => return .none

/-! ## Nodes -/

/-- A node whose content is missing. Something must stand before it. -/
def bare (p : Properties) : Reading Node :=
  if p.anchor.isSome ∨ p.tag.isSome then return .scalar p .plain "" else failure

mutual

/-- A node. Inside a flow collection there are no blocks, and only the nodes of a mapping in a block
may be sequences without a block of their own. -/
def node (inBlock inMapping : Bool) : (fuel : Nat) → Reading Node
  | 0 => failure
  | fuel + 1 => do
    if let .alias name := ← peek then
      skip
      return .alias (← anchored name)
    let p ← properties
    match ← peek, inBlock, inMapping with
    | .scalar style text, _, _ =>
      skip
      return .scalar p style text
    | .flowSequenceStart, _, _ =>
      skip
      .sequence p <$> flowItems true fuel
    | .flowMappingStart, _, _ =>
      skip
      .mapping p <$> flowEntries true fuel
    | .blockSequenceStart, true, _ =>
      skip
      .sequence p <$> blockItems true fuel
    | .blockMappingStart, true, _ =>
      skip
      .mapping p <$> blockEntries fuel
    | .blockEntry, _, true => .sequence p <$> blockItems false fuel
    | _, _, _ => bare p

/-- A node, or the empty node before one of these tokens. -/
def nodeBefore (inBlock inMapping : Bool) (ends : List Token) : (fuel : Nat) → Reading Node
  | 0 => failure
  | fuel + 1 => do
    if ends.contains (← peek) then return .empty
    node inBlock inMapping fuel

def valueBefore (inBlock : Bool) (ends : List Token) : (fuel : Nat) → Reading Node
  | 0 => failure
  | fuel + 1 => do
    if (← peek) ≠ .value then return .empty
    skip
    nodeBefore inBlock inBlock ends fuel

/-- The items of a sequence from the next dash on. Without a block of its own, the sequence ends
where no dash comes. -/
def blockItems (inBlock : Bool) : (fuel : Nat) → Reading Items
  | 0 => failure
  | fuel + 1 => do
    match ← peek with
    | .blockEntry =>
      skip
      let ends : List Token :=
        if inBlock then [.blockEntry, .blockEnd] else [.blockEntry, .key, .value, .blockEnd]
      let first ← nodeBefore true false ends fuel
      return .item first (← blockItems inBlock fuel)
    | _ =>
      if inBlock then eat .blockEnd
      return .done

def blockEntries : (fuel : Nat) → Reading Entries
  | 0 => failure
  | fuel + 1 => do
    let ends : List Token := [.key, .value, .blockEnd]
    match ← peek with
    | .key =>
      skip
      let key ← nodeBefore true true ends fuel
      let value ← valueBefore true ends fuel
      return .entry key value (← blockEntries fuel)
    | _ =>
      eat .blockEnd
      return .done

/-- The items between brackets. An item with a question mark, or with a colon behind it, is a mapping
with one entry. If its key is empty, the token behind the missing key is passed. -/
def flowItems (first : Bool) : (fuel : Nat) → Reading Items
  | 0 => failure
  | fuel + 1 => do
    if !first ∧ (← peek) ≠ .flowSequenceEnd then eat .flowEntry
    let ends : List Token := [.flowEntry, .flowSequenceEnd]
    match ← peek with
    | .flowSequenceEnd =>
      skip
      return .done
    | .key =>
      skip
      let missing := (.value :: ends).contains (← peek)
      let key ← nodeBefore false false (.value :: ends) fuel
      if missing then skip
      let value ← valueBefore false ends fuel
      return .item (.mapping .none (.entry key value .done)) (← flowItems false fuel)
    | _ =>
      let item ← node false false fuel
      return .item item (← flowItems false fuel)

/-- The entries between braces. A key without a question mark or a colon has an empty value. -/
def flowEntries (first : Bool) : (fuel : Nat) → Reading Entries
  | 0 => failure
  | fuel + 1 => do
    if !first ∧ (← peek) ≠ .flowMappingEnd then eat .flowEntry
    let ends : List Token := [.flowEntry, .flowMappingEnd]
    match ← peek with
    | .flowMappingEnd =>
      skip
      return .done
    | .key =>
      skip
      let key ← nodeBefore false false (.value :: ends) fuel
      let value ← valueBefore false ends fuel
      return .entry key value (← flowEntries false fuel)
    | _ =>
      let key ← node false false fuel
      return .entry key .empty (← flowEntries false fuel)

end

/-! ## Documents -/

/-- The directives before a document. One version may be given, and each handle once. -/
def directives (versioned : Bool) : (fuel : Nat) → Reading Unit
  | 0 => failure
  | fuel + 1 => do
    match ← peek with
    | .version major minor =>
      skip
      guard (!versioned ∧ major = 1 ∧ (minor = 1 ∨ minor = 2))
      directives true fuel
    | .tagHandle handle text =>
      skip
      guard ((← get).handles.lookup handle).isNone
      modify fun s => { s with handles := (handle, text) :: s.handles }
      directives versioned fuel
    | _ => return ()

def standardHandles : List (String × TagText) :=
  [("!", .readable "!"), ("!!", .readable "tag:yaml.org,2002:")]

/-- Declare the handles that need no directive and have none. -/
def declareHandles : Reading Unit :=
  modify fun s => { s with handles := s.handles ++ standardHandles }

/-- The only document of a stream. -/
def document (fuel : Nat) : Reading Node := do
  let explicit : Bool := match ← peek with
    | .version _ _ | .tagHandle _ _ | .documentStart => true
    | _ => false
  if explicit then
    directives false fuel
    eat .documentStart
  declareHandles
  let root ← match ← peek, explicit with
    | .version _ _, true | .tagHandle _ _, true | .documentStart, true | .documentEnd, true
    | .streamEnd, true => pure Node.empty
    | _, _ => node true false fuel
  modify fun s => { s with tokens := s.tokens.dropWhile (· = .documentEnd) }
  eat .streamEnd
  return root

end Reading

/-- The node of the only document of a stream. Reading a token takes four units of fuel at most. -/
def node? (text : String) : Option Node := do
  let tokens ← tokens? text
  let (root, _) ← Reading.document (4 * tokens.length + 4) ⟨tokens, [], []⟩
  return root

end Yaml
end ArrayImage
