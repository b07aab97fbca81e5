import ArrayImage.Json.Document
import ArrayImage.Schema.Shape
import ArrayImage.Text.Quoted

/-!
# ArrayImage.Json.Decode

From a JSON document to data of a given shape.

Documents are read from front to back, and the first fault ends the reading: a value that does not
fit the shape, or the place where the text breaks off. Records are objects, or arrays with the
values of the fields in order. Keys that name no field are skipped.
-/

namespace ArrayImage
namespace Json

/-- How a document does not fit its shape. -/
inductive DataError where
  | wrongType (found expected : String)
  | outOfRange (found expected : String)
  | wrongLength (length : Nat) (record : String) (fields : Nat)
  | missingField (name : String)
  | duplicateField (name : String)
  | unknownVariant (name : String) (known : List String)

/-- Why a text has no data. -/
inductive ReadError where
  /-- The text is not JSON. -/
  | malformed
  /-- The document does not fit. -/
  | data (error : DataError)

def ticked (s : String) : String :=
  "`" ++ s ++ "`"

def DataError.message : DataError → String
  | wrongType found expected => s!"invalid type: {found}, expected {expected}"
  | outOfRange found expected => s!"invalid value: {found}, expected {expected}"
  | wrongLength length record fields =>
    s!"invalid length {length}, expected struct {record} with {fields} " ++
      if fields = 1 then "element" else "elements"
  | missingField name => s!"missing field {ticked name}"
  | duplicateField name => s!"duplicate field {ticked name}"
  | unknownVariant name known =>
    s!"unknown variant {ticked name}, expected " ++
      match known with
      | [a, b] => s!"{ticked a} or {ticked b}"
      | _ => "one of " ++ ", ".intercalate (known.map ticked)

/-- How messages call a value; nothing for what cannot be read. -/
def Document.described : Document → Option String
  | .null => some "null"
  | .bool b => some s!"boolean {ticked (toString b)}"
  | .integer n => some s!"integer {ticked (toString n)}"
  | .float text => some s!"floating point {ticked text}"
  | .string s => some s!"string {Text.quoted s}"
  | .array _ => some "sequence"
  | .object _ => some "map"
  | .unreadable | .broken => none

/-- The error of a value where something else is expected. -/
def mismatch (d : Document) (expected : String) : ReadError :=
  match d.described with
  | some found => .data (.wrongType found expected)
  | none => .malformed

def decodeNumber (bits : Nat) : Document → Except ReadError Value
  | .integer n =>
    if 0 ≤ n ∧ n < (1 <<< bits : Nat) then .ok (.number n.toNat)
    else .error (.data (.outOfRange s!"integer {ticked (toString n)}" (Shape.number bits).expected))
  | d => .error (mismatch d (Shape.number bits).expected)

def decodeName (names : List String) (name : String) : Except ReadError Value :=
  if names.contains name then .ok (.text name)
  else .error (.data (.unknownVariant name names))

/-- One of some names: a string, or an object with the name as its only key and null behind it. -/
def decodeChoice (names : List String) : Document → Except ReadError Value
  | .string name => decodeName names name
  | .object (.entry (some name) value rest) => do
    let choice ← decodeName names name
    match value, rest with
    | .null, .closed => .ok choice
    | .null, _ => .error .malformed
    | value, _ => .error (mismatch value "unit")
  | _ => .error .malformed

/-- A null where a field may be null. -/
def isMissing : Presence → Document → Bool
  | .optional, .null => true
  | _, _ => false

/-- The fields of a record behind the last item of an array, from field number `index` on. -/
def missingRow (record : String) (count : Nat) :
    (index : Nat) → Fields → Except ReadError (List (String × Value))
  | _, .done => .ok []
  | index, .field name presence _ rest =>
    match presence.missing? with
    | none => .error (.data (.wrongLength index record count))
    | some value => do
      let values ← missingRow record count (index + 1) rest
      return (name, value) :: values

mutual

/-- The data of a document of this shape. -/
def decode : Document → Shape → Except ReadError Value
  | .string s, .text => .ok (.text s)
  | d, .number bits => decodeNumber bits d
  | d, .choice names => decodeChoice names d
  | .array items, .list item => do return .list (← decodeItems item items)
  | .array items, .record name fields => do
    return .record (← decodeRow name fields.count items 0 fields)
  | .object entries, .record _ fields => do return .record (← decodeEntries fields [] entries)
  | d, shape => .error (mismatch d shape.expected)

/-- The items of a list. -/
def decodeItems (shape : Shape) : Items → Except ReadError (List Value)
  | .closed => .ok []
  | .broken => .error .malformed
  | .item d rest => do
    let value ← decode d shape
    let values ← decodeItems shape rest
    return value :: values

/-- The fields of a record from the items of an array, from field number `index` on. -/
def decodeRow (record : String) (count : Nat) :
    Items → (index : Nat) → Fields → Except ReadError (List (String × Value))
  | .closed, index, fields => missingRow record count index fields
  | .broken, _, _ => .error .malformed
  | .item _ _, _, .done => .error .malformed
  | .item d items, index, .field name presence shape rest => do
    let value ← if isMissing presence d then .ok .null else decode d shape
    let values ← decodeRow record count items (index + 1) rest
    return (name, value) :: values

/-- The fields of a record from the entries of an object, given those that were found before. -/
def decodeEntries (fields : Fields) (found : List (String × Value)) :
    Entries → Except ReadError (List (String × Value))
  | .closed =>
    match fields.complete found with
    | .ok values => .ok values
    | .error name => .error (.data (.missingField name))
  | .broken => .error .malformed
  | .entry none _ _ => .error .malformed
  | .entry (some key) d rest =>
    match fields.find? key with
    | none => if d.isWhole then decodeEntries fields found rest else .error .malformed
    | some (presence, shape) =>
      if (found.lookup key).isSome then .error (.data (.duplicateField key))
      else do
        let value ← if isMissing presence d then .ok .null else decode d shape
        decodeEntries fields ((key, value) :: found) rest

end

end Json
end ArrayImage
