import ArrayImage.Schema.Value

/-!
# ArrayImage.Json.Document

JSON documents as far as their text goes.

A text that stops being JSON somewhere still has a document: everything before that place, with
`broken` where it ends. So a reader of documents meets the faults of a text in the order in which
they stand there, and a value of a wrong type before the broken place is found first.
-/

namespace ArrayImage
namespace Json

mutual

/-- A value, or the place where the text stops being JSON. -/
inductive Document where
  | null
  | bool (b : Bool)
  | integer (n : Int)
  /-- A number with a fraction or an exponent, or too large for an integer, by its shortest
  text. -/
  | float (text : String)
  | string (s : String)
  | array (items : Items)
  | object (entries : Entries)
  /-- A value of correct form that stands for nothing: a number that is too large, or a string with
  half a character. It can be skipped but not read. -/
  | unreadable
  | broken

inductive Items where
  | closed
  | broken
  | item (value : Document) (rest : Items)

/-- The entries between braces. A key is missing when its string is unreadable. -/
inductive Entries where
  | closed
  | broken
  | entry (key : Option String) (value : Document) (rest : Entries)

end

mutual

/-- The whole value is there, so a reader can skip it. -/
def Document.isWhole : Document → Bool
  | .null | .bool _ | .integer _ | .float _ | .string _ | .unreadable => true
  | .broken => false
  | .array items => items.areWhole
  | .object entries => entries.areWhole

def Items.areWhole : Items → Bool
  | .closed => true
  | .broken => false
  | .item value rest => value.isWhole && rest.areWhole

def Entries.areWhole : Entries → Bool
  | .closed => true
  | .broken => false
  | .entry _ value rest => value.isWhole && rest.areWhole

end

/-! ## Data as documents -/

mutual

def ofValue : Value → Document
  | .null => .null
  | .number n => .integer n
  | .text s => .string s
  | .list items => .array (ofValues items)
  | .record fields => .object (ofFields fields)

def ofValues : List Value → Items
  | [] => .closed
  | v :: rest => .item (ofValue v) (ofValues rest)

def ofFields : List (String × Value) → Entries
  | [] => .closed
  | (name, v) :: rest => .entry (some name) (ofValue v) (ofFields rest)

end

end Json
end ArrayImage
