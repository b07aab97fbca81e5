/-!
# ArrayImage.Schema.Value

Data without a syntax: what a description says once its text is read.

A `Value` is canonical: a record has all of its fields, in their declared order, and a field that
was left out has its default.
-/

namespace ArrayImage

/-- Plain data. -/
inductive Value where
  | null
  | number (n : Nat)
  | text (s : String)
  | list (items : List Value)
  | record (fields : List (String × Value))

namespace Value

def byte? : Value → Option UInt8
  | number n => if n < UInt8.size then some (UInt8.ofNat n) else none
  | _ => none

def word? : Value → Option UInt32
  | number n => if n < UInt32.size then some (UInt32.ofNat n) else none
  | _ => none

def long? : Value → Option UInt64
  | number n => if n < UInt64.size then some (UInt64.ofNat n) else none
  | _ => none

def text? : Value → Option String
  | text s => some s
  | _ => none

/-- A value that may be missing. -/
def optional? {α : Type} (read : Value → Option α) : Value → Option (Option α)
  | null => some none
  | v => (read v).map some

def list? {α : Type} (read : Value → Option α) : Value → Option (List α)
  | list items => items.mapM read
  | _ => none

def ofByte (b : UInt8) : Value :=
  number b.toNat

def ofWord (w : UInt32) : Value :=
  number w.toNat

def ofLong (l : UInt64) : Value :=
  number l.toNat

/-- A value that may be missing, as data. -/
def ofOptional {α : Type} (write : α → Value) : Option α → Value
  | none => null
  | some a => write a

def ofList {α : Type} (write : α → Value) (items : List α) : Value :=
  list (items.map write)

end Value
end ArrayImage
