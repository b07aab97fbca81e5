import ArrayImage.Text.Number

/-!
# ArrayImage.Fault

Broken preconditions. A fault ends the whole run: unlike a diagnostic it cannot be carried past,
and unlike a compile error it says that the caller, not the description, is wrong.
-/

namespace ArrayImage

/-- A precondition that does not hold. -/
inductive Fault where
  /-- A column needs at most seven bits. -/
  | columnTooLarge (column : Nat)
  /-- A row needs at most five bits. -/
  | rowTooLarge (row : Nat)
  /-- The offset of an array needs at most 34 bits. -/
  | arrayTooLarge
  /-- A register lies inside the window of its tile. -/
  | outsideWindow (offset : Nat)
  /-- Column 0 has no registers. -/
  | writeToColumnZero (offset : Nat)
  /-- A write lies inside the window of its tile. -/
  | writeOutsideWindow (column row offset : Nat)
  /-- A cleared range starts at a word. -/
  | clearStart (start : Nat)
  /-- A cleared range is whole words long. -/
  | clearLength (length : Nat)
  /-- A sum fits its number of bits. -/
  | addOverflow
  /-- A product fits its number of bits. -/
  | mulOverflow
  /-- A shift stays below the width of the word. -/
  | shiftOverflow
deriving DecidableEq

namespace Fault

def message : Fault → String
  | columnTooLarge column => s!"column {column} exceeds 7 bits"
  | rowTooLarge row => s!"row {row} exceeds 5 bits"
  | arrayTooLarge => "array offset exceeds 34 bits"
  | outsideWindow offset => s!"offset {Text.hex offset} is outside the tile window"
  | writeToColumnZero offset => s!"write to column 0 at {Text.hex offset}"
  | writeOutsideWindow column row offset =>
    s!"<{column},{row}>: offset {Text.hex offset} is outside the tile window"
  | clearStart start => s!"clear start {Text.hex start} is not word aligned"
  | clearLength length => s!"clear length {Text.hex length} is not word aligned"
  | addOverflow => "attempt to add with overflow"
  | mulOverflow => "attempt to multiply with overflow"
  | shiftOverflow => "attempt to shift left with overflow"

end Fault

/-- The sum of two numbers of `bits` bits, which must have no more bits itself. -/
def checkedAdd (bits a b : Nat) : Except Fault Nat :=
  if a + b < 1 <<< bits then .ok (a + b) else .error .addOverflow

def checkedMul (bits a b : Nat) : Except Fault Nat :=
  if a * b < 1 <<< bits then .ok (a * b) else .error .mulOverflow

end ArrayImage
