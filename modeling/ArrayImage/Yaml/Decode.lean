import ArrayImage.Schema.Shape
import ArrayImage.Yaml.Reader

/-!
# ArrayImage.Yaml.Decode

From the node of a YAML document to data of a given shape.

A plain scalar means what its place asks for: the same text is a name in one place and a number in
another. An empty scalar stands for an empty list and for a record without fields.
-/

namespace ArrayImage
namespace Yaml

/-! ## Plain scalars -/

/-- The number that digits stand for. There must be one at least. -/
def digitsIn? (base : Nat) (cs : List Char) : Option Nat :=
  if cs.isEmpty then none
  else
    cs.foldlM (fun n c => do
      let d ← Text.hexValue? c
      guard (d < base)
      return base * n + d) 0

/-- The base that a number is written in, and its digits. -/
def numberBase : List Char → Nat × List Char
  | '0' :: 'x' :: rest => (16, rest)
  | '0' :: 'o' :: rest => (8, rest)
  | '0' :: 'b' :: rest => (2, rest)
  | cs => (10, cs)

/-- The number that a plain scalar stands for. One with a zero before other digits is a text. -/
def number? (text : String) : Option Nat :=
  let (base, digits) := numberBase (match text.toList with
    | '+' :: rest => rest
    | cs => cs)
  if base = 10 ∧ digits.head? = some '0' ∧ digits.length ≠ 1 then none else digitsIn? base digits

def isNullText (text : String) : Bool :=
  ["null", "Null", "NULL", "~"].contains text

def integerTag : TagText := .readable "tag:yaml.org,2002:int"

def nullTag : TagText := .readable "tag:yaml.org,2002:null"

/-- The node says whether there is a value. A node with the tag of missing values cannot have
one. -/
def isNull? : Node → Option Bool
  | .scalar p .plain text =>
    match p.tag with
    | none => some (text.isEmpty || isNullText text)
    | some tag =>
      if tag ≠ nullTag then some false else if isNullText text then some true else none
  | _ => some false

def tagName? (p : Properties) : Option String :=
  match p.tag with
  | some (.readable text) => do
    guard (text.toList.head? = some '!')
    return String.ofList text.toList.tail
  | _ => none

/-- The name that is chosen: the tag of a node without a value, or else the text of a scalar. -/
def choiceName? : Node → Option String
  | .scalar p style text =>
    match tagName? p with
    | none => some text
    | some name =>
      if style = .plain ∧ (text.isEmpty ∨ isNullText text) then some name else none
  | _ => none

/-- The number of a scalar. Only a tag makes a number of a block of lines. -/
def numberOf? : Node → Option Nat
  | .scalar _ .plain text => number? text
  | .scalar p .literal text => if p.tag = some integerTag then number? text else none
  | _ => none

def itemsOf? : Node → Option (List Node)
  | .sequence _ items => some items.toList
  | .scalar _ .plain "" => some []
  | _ => none

def entriesOf? : Node → Option (List (Node × Node))
  | .mapping _ entries => some entries.toList
  | .scalar _ .plain "" => some []
  | _ => none

/-- The text of a scalar. -/
def textOf? : Node → Option String
  | .scalar _ _ text => some text
  | _ => none

/-! ## Aliases -/

/-- A step of decoding. The state is the number of aliases that may still be followed. -/
abbrev Decoding := StateT Nat Option

/-- The node that is meant: the node itself, or the one that an alias stands for. -/
def follow (anchors : List (Nat × Node)) (n : Node) : Decoding Node := do
  match n with
  | .alias id =>
    match ← get, anchors.lookup id with
    | left + 1, some target =>
      set left
      return target
    | _, _ => failure
  | n => return n

/-! ## Data -/

/-- Add the value of an entry, unless its key is unknown. No key may come twice. -/
def addField (found : List (String × Value)) (key : String) :
    Option Value → Decoding (List (String × Value))
  | none => return found
  | some value => do
    guard (found.lookup key).isNone
    return (key, value) :: found

mutual

/-- The data of a node of this shape. -/
def decode (anchors : List (Nat × Node)) : Shape → Node → Decoding Value
  | .text, n => do return .text (← textOf? (← follow anchors n))
  | .number bits, n => do
    let value ← numberOf? (← follow anchors n)
    guard (value < 1 <<< bits)
    return .number value
  | .choice names, n => do
    let name ← choiceName? (← follow anchors n)
    guard (names.contains name)
    return .text name
  | .list item, n => do
    let items ← itemsOf? (← follow anchors n)
    return .list (← items.mapM (decode anchors item))
  | .record _ fields, n => do
    let entries ← entriesOf? (← follow anchors n)
    let found ← entries.foldlM (fun found (key, value) => do
      let name ← textOf? (← follow anchors key)
      addField found name (← decodeField anchors fields name value)) []
    match fields.complete found with
    | .ok values => return .record values
    | .error _ => failure

/-- The value of the field with this name, if there is such a field. -/
def decodeField (anchors : List (Nat × Node)) :
    Fields → (name : String) → Node → Decoding (Option Value)
  | .done, _, _ => return none
  | .field field presence shape rest, name, n => do
    if field ≠ name then decodeField anchors rest name n
    else
      match presence with
      | .optional =>
        let n ← follow anchors n
        if ← isNull? n then return some .null else some <$> decode anchors shape n
      | .required | .default _ => some <$> decode anchors shape n

end

/-- Data of a shape from a text. Aliases may be followed a hundred times as often as the document
is large. -/
def read? (shape : Shape) (text : String) : Option Value := do
  let root ← node? text
  let (value, _) ← decode (root.anchors []) shape root (100 * root.size)
  return value

end Yaml
end ArrayImage
