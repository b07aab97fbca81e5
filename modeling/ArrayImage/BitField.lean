/-!
# ArrayImage.BitField

Register words and the bit ranges inside them.

A `BitField` is the range of bits from `low` up to `high` of a 32-bit word. `set` moves a value
into the range and drops the bits that do not fit, so words are put together with `|||` and no
field reaches into another.
-/

namespace ArrayImage

/-- The contents of one register. -/
abbrev Word := BitVec 32

abbrev Word.ofNat (n : Nat) : Word :=
  BitVec.ofNat 32 n

abbrev Word.ofByte (b : UInt8) : Word :=
  .ofNat b.toNat

/-- The bits `low` to `high` of a word, both included. -/
structure BitField where
  high : Nat
  low : Nat
  low_le_high : low ≤ high := by decide
  high_lt : high < 32 := by decide

namespace BitField

def bit (b : Nat) (h : b < 32 := by decide) : BitField :=
  ⟨b, b, Nat.le_refl b, h⟩

def width (f : BitField) : Nat :=
  f.high - f.low + 1

/-- As many ones as the field has bits, at the bottom of the word. -/
def valueMask (f : BitField) : Word :=
  BitVec.ofNat 32 (1 <<< f.width - 1)

/-- Ones in the bits of the field, zeros elsewhere. -/
def mask (f : BitField) : Word :=
  f.valueMask <<< f.low

/-- `value` in the place of the field; what does not fit is dropped. -/
def set (f : BitField) (value : Word) : Word :=
  (value <<< f.low) &&& f.mask

/-- A yes or no in the lowest bit of the field. -/
def flag (f : BitField) (on : Bool) : Word :=
  f.set (if on then 1 else 0)

def get (f : BitField) (w : Word) : Word :=
  (w &&& f.mask) >>> f.low

end BitField
end ArrayImage
