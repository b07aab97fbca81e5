import ArrayImage.Json.Document
import ArrayImage.Text.Number
import ArrayImage.Text.Shortest

/-!
# ArrayImage.Json.Number

Numbers of a JSON text.

A `Numeral` is the written form in its parts. Its document is an integer when it has neither a
fraction nor an exponent and fits into 64 bits, and otherwise the floating point number that its
leading digits give.
-/

namespace ArrayImage
namespace Json

/-- A number as it is written. Each part is a list of digits. -/
structure Numeral where
  negative : Bool
  whole : List Char
  fraction : Option (List Char)
  /-- The exponent, and whether it is negative. -/
  exponent : Option (Bool × List Char)

/-- Digits up to the first other character, if there is one at least. -/
def digits? (cs : List Char) : Option (List Char × List Char) :=
  match cs.takeWhile Char.isDigit with
  | [] => none
  | ds => some (ds, cs.dropWhile Char.isDigit)

/-- The digits before the point: a zero stands alone. -/
def whole? (cs : List Char) : Option (List Char × List Char) :=
  match digits? cs with
  | some ('0' :: _ :: _, _) => none
  | found => found

/-- The digits behind a point, if there is a point. -/
def fraction? : List Char → Option (Option (List Char) × List Char)
  | '.' :: cs => (digits? cs).map fun (ds, rest) => (some ds, rest)
  | cs => some (none, cs)

/-- The digits of an exponent and its sign, if there is an exponent. -/
def exponent? : List Char → Option (Option (Bool × List Char) × List Char)
  | [] => some (none, [])
  | c :: cs =>
    if c = 'e' ∨ c = 'E' then
      match cs with
      | '+' :: cs => (digits? cs).map fun (ds, rest) => (some (false, ds), rest)
      | '-' :: cs => (digits? cs).map fun (ds, rest) => (some (true, ds), rest)
      | cs => (digits? cs).map fun (ds, rest) => (some (false, ds), rest)
    else some (none, c :: cs)

/-- A number at the start of a text, and the rest of the text. -/
def Numeral.read? (cs : List Char) : Option (Numeral × List Char) := do
  let (negative, cs) := match cs with
    | '-' :: cs => (true, cs)
    | cs => (false, cs)
  let (whole, cs) ← whole? cs
  let (fraction, cs) ← fraction? cs
  let (exponent, cs) ← exponent? cs
  return (⟨negative, whole, fraction, exponent⟩, cs)

/-- Leading digits as a 64-bit number, and the power of ten that it counts. -/
structure Scaled where
  significand : Nat
  exponent : Int

/-- The significand with one digit more, unless it would leave 64 bits. -/
def Scaled.push? (s : Scaled) (c : Char) : Option Nat :=
  let n := s.significand * 10 + Text.digitValue c
  if n < UInt64.size then some n else none

/-- Add digits before the point. The first digit without room, and all behind it, only count. -/
def Scaled.pushWhole (s : Scaled) : List Char → Scaled
  | [] => s
  | c :: cs =>
    match s.push? c with
    | some n => pushWhole ⟨n, s.exponent⟩ cs
    | none => ⟨s.significand, s.exponent + 1 + cs.length⟩

/-- Add digits behind the point. The first digit without room, and all behind it, are dropped. -/
def Scaled.pushFraction (s : Scaled) : List Char → Scaled
  | [] => s
  | c :: cs =>
    match s.push? c with
    | some n => pushFraction ⟨n, s.exponent - 1⟩ cs
    | none => s

def powerOfTen (n : Nat) : Float :=
  Float.ofScientific 1 false n

/-- `f` divided by the power of ten `n`, in steps where that power is out of range. -/
def shrink (f : Float) (n : Nat) : Float :=
  if _h : n ≤ 308 then f / powerOfTen n
  else if f == 0.0 then f
  else shrink (f / powerOfTen 308) (n - 308)
termination_by n
decreasing_by omega

def Scaled.toFloat? (s : Scaled) : Option Float :=
  let f := Float.ofNat s.significand
  if s.exponent < 0 then some (shrink f s.exponent.natAbs)
  else if s.exponent ≤ 308 then
    let g := f * powerOfTen s.exponent.toNat
    if g.isInf then none else some g
  else if s.significand = 0 then some f
  else none

/-- Apply a written exponent. One that does not fit into 32 bits leaves nothing but zero. -/
def Scaled.raise? (s : Scaled) : Option (Bool × List Char) → Option Scaled
  | none => some s
  | some (negative, ds) =>
    let n := Text.decimal ds
    if n < 1 <<< 31 then
      some { s with exponent := if negative then s.exponent - n else s.exponent + n }
    else if s.significand = 0 ∨ negative then some ⟨0, 0⟩
    else none

def Numeral.scaled (n : Numeral) : Scaled :=
  (Scaled.pushWhole ⟨0, 0⟩ n.whole).pushFraction (n.fraction.getD [])

/-- A number as a floating point number. -/
def Numeral.float (n : Numeral) : Document :=
  match (n.scaled.raise? n.exponent).bind Scaled.toFloat? with
  | some f => .float (Text.shortest (if n.negative then -f else f))
  | none => .unreadable

/-- The integer that a number stands for, if it is written as one and fits. Zero has no sign. -/
def Numeral.integer? (n : Numeral) : Option Int :=
  let s := n.scaled
  if n.fraction.isSome ∨ n.exponent.isSome ∨ s.exponent ≠ 0 then none
  else if !n.negative then some s.significand
  else if s.significand = 0 ∨ 1 <<< 63 < s.significand then none
  else some (-s.significand)

def Numeral.document (n : Numeral) : Document :=
  match n.integer? with
  | some i => .integer i
  | none => n.float

end Json
end ArrayImage
