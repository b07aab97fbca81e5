import ArrayImage.Fault

/-!
# ArrayImage.TileId

Tiles and registers, and the 64-bit addresses that stand for them.

An address has four parts, from the top: 34 bits for the array, 7 for the column, 5 for the row
and 18 for the offset inside the tile's window. `Register.address` packs them and
`Register.ofAddress` takes them apart.
-/

namespace ArrayImage

/-- The number of bytes in the register window of one tile. -/
def windowSize : Nat := 0x40000

/-- One tile of one array. -/
structure TileId where
  array : Nat
  column : Nat
  row : Nat
  array_lt : array < 0x400000000 := by decide
  column_lt : column < 0x80 := by decide
  row_lt : row < 0x20 := by decide
deriving DecidableEq

namespace TileId

/-- The tile with these coordinates. Column, row and array are checked in this order. -/
def at? (array column row : Nat) : Except Fault TileId :=
  if hc : column < 0x80 then
    if hr : row < 0x20 then
      if ha : array < 0x400000000 then .ok ⟨array, column, row, ha, hc, hr⟩
      else .error .arrayTooLarge
    else .error (.rowTooLarge row)
  else .error (.columnTooLarge column)

/-- Row 0 is the shim row, the boundary of the array. -/
def isShim (t : TileId) : Bool :=
  t.row == 0

/-- The address of `offset` in the window of `t`; only the low 18 bits of the offset count. -/
def address (t : TileId) (offset : Nat) : Nat :=
  t.array * 0x40000000 + t.column * 0x800000 + t.row * 0x40000 + offset % windowSize

def ofAddress (address : Nat) : TileId where
  array := address / 0x40000000 % 0x400000000
  column := address / 0x800000 % 0x80
  row := address / 0x40000 % 0x20
  array_lt := Nat.mod_lt _ (by decide)
  column_lt := Nat.mod_lt _ (by decide)
  row_lt := Nat.mod_lt _ (by decide)

/-- A tile by its column and row, as in `<3,1>`. -/
def text (t : TileId) : String :=
  s!"<{t.column},{t.row}>"

end TileId

/-- One place in the window of a tile. -/
structure Register where
  tile : TileId
  offset : Nat
  offset_lt : offset < windowSize := by decide
deriving DecidableEq

namespace Register

/-- The register at `offset` of `tile`, which must lie inside the window. -/
def at? (tile : TileId) (offset : Nat) : Except Fault Register :=
  if h : offset < windowSize then .ok ⟨tile, offset, h⟩ else .error (.outsideWindow offset)

/-- The address that stands for the register in the whole address space. -/
def address (r : Register) : Nat :=
  r.tile.address r.offset

def ofAddress (address : Nat) : Register where
  tile := TileId.ofAddress address
  offset := address % windowSize
  offset_lt := Nat.mod_lt _ (by decide)

/-- A register by its tile and offset, as in `<7,2> @ 0x1f000`. -/
def text (r : Register) : String :=
  s!"{r.tile.text} @ {Text.hexPadded 5 r.offset}"

end Register
end ArrayImage
