/-!
# ArrayImage.Text.Shortest

The shortest decimal text of a floating point number.

A finite number other than zero is `m · 2^q`, and the decimals that read back as it lie in an
interval around it. Of all grids `10^k` the coarsest one with a point in that interval gives the
digits; of two such points the nearer one is taken, and of two equally near ones the even one. All
of this is exact arithmetic on natural numbers.
-/

namespace ArrayImage
namespace Text

/-- A positive binary number `significand · 2^exponent`. -/
structure Binary where
  significand : Nat
  exponent : Int
  /-- The number below is only half as far away as the one above. -/
  closeBelow : Bool

/-- The number with these 64 bits, apart from its sign. -/
def Binary.ofBits (bits : Nat) : Binary :=
  let exponent : Nat := bits >>> 52 % 0x800
  let fraction := bits % 1 <<< 52
  if exponent = 0 then ⟨fraction, -1074, false⟩
  else ⟨fraction + 1 <<< 52, (exponent : Int) - 1075, fraction == 0 && exponent > 1⟩

/-- The point of the grid `10^k` that reads back as `b`, if there is one. -/
def Binary.onGrid? (b : Binary) (k : Int) : Option Nat :=
  let unit := Nat.pow 2 (b.exponent - 2).toNat * Nat.pow 10 (-k).toNat
  let scale := Nat.pow 2 (2 - b.exponent).toNat * Nat.pow 10 k.toNat
  let value := 4 * b.significand * unit
  let low := (4 * b.significand - if b.closeBelow then 1 else 2) * unit
  let high := (4 * b.significand + 2) * unit
  let readsBack (point : Nat) : Bool :=
    if b.significand % 2 = 0 then low ≤ point && point ≤ high else low < point && point < high
  let below := value / scale
  let above := below + 1
  match readsBack (below * scale), readsBack (above * scale) with
  | false, false => none
  | true, false => some below
  | false, true => some above
  | true, true =>
    let left := value - below * scale
    let right := above * scale - value
    some (if left < right || (left = right && below % 2 = 0) then below else above)

/-- The digits of `b` as a whole number, and the power of ten that they count. -/
def Binary.shortest (b : Binary) : Nat × Int :=
  ((List.range 700).findSome? fun (i : Nat) =>
    let k : Int := 310 - i
    (b.onGrid? k).map (·, k)).getD (0, 0)

/-- `digits · 10^exponent` with a point between the digits, or with a power of ten and its sign when
the number has more than 16 places before the point or more than 5 zeros behind it. -/
def decimalText (digits : Nat) (exponent : Int) : String :=
  let ds := Nat.toDigits 10 digits
  let zeros (n : Nat) : List Char := List.replicate n '0'
  let point : Int := ds.length + exponent
  String.ofList <|
    if 0 ≤ exponent ∧ point ≤ 16 then ds ++ zeros exponent.toNat ++ ['.', '0']
    else if 0 < point ∧ point ≤ 16 then ds.take point.toNat ++ '.' :: ds.drop point.toNat
    else if -5 < point ∧ point ≤ 0 then ['0', '.'] ++ zeros (-point).toNat ++ ds
    else
      let sign := if point < 1 then '-' else '+'
      let power := 'e' :: sign :: Nat.toDigits 10 (point - 1).natAbs
      match ds with
      | [d] => d :: power
      | d :: rest => d :: '.' :: rest ++ power
      | [] => power

/-- The shortest text that reads back as the finite number `f`. -/
def shortest (f : Float) : String :=
  let bits := f.toBits.toNat
  let sign := if bits < 1 <<< 63 then "" else "-"
  let b := Binary.ofBits (bits % 1 <<< 63)
  if b.significand = 0 then sign ++ "0.0"
  else
    let (digits, exponent) := b.shortest
    sign ++ decimalText digits exponent

end Text
end ArrayImage
