import ArrayImage.Schema.Value

/-!
# ArrayImage.Schema.Shape

What a description may look like, apart from the syntax it is written in.

A `Shape` says which values fit. Records have named fields, and the `Presence` of a field says what
it stands for when it is left out.
-/

namespace ArrayImage

/-- What happens when a field is left out. -/
inductive Presence where
  /-- The field must be there. -/
  | required
  /-- The field may be null, and is null when it is left out. -/
  | optional
  /-- The field has this value when it is left out. -/
  | default (value : Value)

/-- The value of a field that is left out. -/
def Presence.missing? : Presence → Option Value
  | required => none
  | optional => some .null
  | default value => some value

mutual

/-- The values that fit a place. -/
inductive Shape where
  /-- A text. -/
  | text
  /-- A number of so many bits, without a sign. -/
  | number (bits : Nat)
  /-- One of some names. -/
  | choice (names : List String)
  /-- A list of values of one shape. -/
  | list (item : Shape)
  /-- A record of a named type. -/
  | record (name : String) (fields : Fields)

inductive Fields where
  | done
  | field (name : String) (presence : Presence) (shape : Shape) (rest : Fields)

end

namespace Fields

def ofList : List (String × Presence × Shape) → Fields
  | [] => done
  | (name, presence, shape) :: rest => field name presence shape (ofList rest)

def count : Fields → Nat
  | done => 0
  | field _ _ _ rest => rest.count + 1

def find? (name : String) : Fields → Option (Presence × Shape)
  | done => none
  | field n presence shape rest => if n = name then some (presence, shape) else rest.find? name

/-- All fields in order, from the values that were found, or the name of the first required field
that was not. -/
def complete (found : List (String × Value)) : Fields → Except String (List (String × Value))
  | done => .ok []
  | field name presence _ rest =>
    match (found.lookup name).or presence.missing? with
    | none => .error name
    | some value => do
      let values ← rest.complete found
      return (name, value) :: values

end Fields

def Shape.expected : Shape → String
  | text => "a string"
  | number bits => s!"u{bits}"
  | choice _ => "variant identifier"
  | list _ => "a sequence"
  | record name _ => s!"struct {name}"

end ArrayImage
