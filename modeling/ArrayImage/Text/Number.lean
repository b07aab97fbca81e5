/-!
# ArrayImage.Text.Number

Numbers as text: hexadecimal ones as diagnostics and the section table write them, with column
padding, and the numbers that digits stand for.
-/

namespace ArrayImage
namespace Text

/-- Widen `s` to `width` characters with `fill` in front; a longer text is left alone. -/
def padLeft (width : Nat) (fill : Char) (s : String) : String :=
  String.ofList (List.replicate (width - s.length) fill) ++ s

def padRight (width : Nat) (s : String) : String :=
  s ++ String.ofList (List.replicate (width - s.length) ' ')

/-- The lower-case hexadecimal digits of `n` without leading zeros; zero is `0`. -/
def hexDigits (n : Nat) : String :=
  String.ofList (Nat.toDigits 16 n)

/-- `n` in hexadecimal, as in `0x1f000`. -/
def hex (n : Nat) : String :=
  "0x" ++ hexDigits n

def hexPadded (digits n : Nat) : String :=
  "0x" ++ padLeft digits '0' (hexDigits n)

/-! ## Reading -/

def digitValue (c : Char) : Nat :=
  c.toNat - '0'.toNat

/-- The number that decimal digits stand for. -/
def decimal (digits : List Char) : Nat :=
  digits.foldl (fun n c => n * 10 + digitValue c) 0

def hexValue? (c : Char) : Option Nat :=
  if '0' ≤ c ∧ c ≤ '9' then some (c.toNat - '0'.toNat)
  else if 'a' ≤ c ∧ c ≤ 'f' then some (c.toNat - 'a'.toNat + 10)
  else if 'A' ≤ c ∧ c ≤ 'F' then some (c.toNat - 'A'.toNat + 10)
  else none

/-- The number that hexadecimal digits stand for. -/
def hexNumber? (digits : List Char) : Option Nat :=
  digits.foldlM (fun n c => (hexValue? c).map (16 * n + ·)) 0

end Text
end ArrayImage
