/-!
# ArrayImage.Bytes

Numbers as bytes, lowest byte first.
-/

namespace ArrayImage

/-- The lowest `count` bytes of `n`, lowest first. -/
def bytesOfNat : (count n : Nat) → List UInt8
  | 0, _ => []
  | count + 1, n => UInt8.ofNat (n % 256) :: bytesOfNat count (n / 256)

def natOfBytes : List UInt8 → Nat
  | [] => 0
  | b :: rest => b.toNat + 256 * natOfBytes rest

/-- `count` bytes from `place` on, as a number. Bytes past the end are left out. -/
def natAt (bytes : List UInt8) (place count : Nat) : Nat :=
  natOfBytes ((bytes.drop place).take count)

end ArrayImage
