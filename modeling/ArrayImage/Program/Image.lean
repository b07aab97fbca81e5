import ArrayImage.BitField
import ArrayImage.Bytes
import ArrayImage.Fault
import ArrayImage.RegisterMap
import ArrayImage.Text.Quoted
import ArrayImage.TileId

/-!
# ArrayImage.Program.Image

Compiled core programs and where their segments go in the window of a tile.

Executable segments go to program memory at their address; all others go to data memory, at their
address modulo its size. `Segment.verdict` says whether a segment fits the window, and
`wordsOfBytes` gives the words that are written, little end first and padded with zeros.
-/

namespace ArrayImage

/-- A piece of a program and the address it asks for. -/
structure Segment where
  address : UInt64
  executable : Bool
  data : List UInt8

/-- Why a program cannot be loaded. -/
inductive LoadError where
  /-- The file cannot be read. -/
  | unreadable (path : String)
  /-- The file is no program file, or its tables are broken. -/
  | malformed (reason : String)
  /-- The file is not for 32-bit machines. -/
  | wrongClass
  /-- The file is not little-endian. -/
  | wrongEndianness
  /-- A segment reaches past the end of the file. -/
  | segmentBounds (address : Nat)
  /-- A segment reaches past the window of its tile. -/
  | outOfWindow (address dest length : Nat)
deriving DecidableEq

namespace LoadError

def message : LoadError → String
  | unreadable path => s!"Failed to read program {Text.quoted path}"
  | malformed reason => s!"Malformed program header: {reason}"
  | wrongClass => "Program is not a 32-bit ELF"
  | wrongEndianness => "Program is not little-endian"
  | segmentBounds address => s!"Segment at {Text.hex address} runs past the end of the file"
  | outOfWindow address dest length =>
    s!"Segment at {Text.hex address} ({length} bytes) does not fit the tile window at {Text.hex dest}"

/-- A file whose header cannot be trusted ends the run; all other errors only cost the program. -/
def isFatal : LoadError → Bool
  | malformed _ | wrongClass | wrongEndianness => true
  | unreadable _ | segmentBounds _ | outOfWindow _ _ _ => false

end LoadError

namespace Segment

/-- Where a segment goes in the window of its tile. -/
def destination (s : Segment) : Except Fault Nat :=
  if s.executable then checkedAdd 64 RegisterMap.programMemory.base s.address.toNat
  else .ok (RegisterMap.dataMemory.base + s.address.toNat % RegisterMap.dataMemory.size)

/-- The number of words that a segment fills, the last one perhaps in part. -/
def wordCount (s : Segment) : Nat :=
  (s.data.length + 3) / 4

/-- What the window says to a program. -/
inductive Verdict where
  /-- Everything has a place. -/
  | fits
  /-- Something has no place. -/
  | rejected (error : LoadError)
  /-- The place cannot even be computed. -/
  | broken (fault : Fault)

def verdict (s : Segment) : Verdict :=
  match s.destination with
  | .error fault => .broken fault
  | .ok dest =>
    match checkedAdd 64 dest (4 * s.wordCount) with
    | .error fault => .broken fault
    | .ok last =>
      if last ≤ windowSize then .fits
      else .rejected (.outOfWindow s.address.toNat dest s.data.length)

end Segment

def wordOfBytes (b0 b1 b2 b3 : UInt8) : Word :=
  BitVec.ofNat 32 (natOfBytes [b0, b1, b2, b3])

/-- Bytes as words, the last one padded with zeros. -/
def wordsOfBytes : List UInt8 → List Word
  | b0 :: b1 :: b2 :: b3 :: rest => wordOfBytes b0 b1 b2 b3 :: wordsOfBytes rest
  | [b0, b1, b2] => [wordOfBytes b0 b1 b2 0]
  | [b0, b1] => [wordOfBytes b0 b1 0 0]
  | [b0] => [wordOfBytes b0 0 0 0]
  | [] => []

/-- A compiled program: its segments in the order of the file. -/
structure ProgramImage where
  segments : List Segment

namespace ProgramImage

/-- The first segment that does not fit speaks for the whole program. -/
def verdict (p : ProgramImage) : Segment.Verdict :=
  go p.segments
where
  go : List Segment → Segment.Verdict
    | [] => .fits
    | s :: rest =>
      match s.verdict with
      | .fits => go rest
      | other => other

def wordCount (p : ProgramImage) : Nat :=
  p.segments.foldr (·.wordCount + ·) 0

end ProgramImage
end ArrayImage
