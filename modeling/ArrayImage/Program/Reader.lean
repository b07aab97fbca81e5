import ArrayImage.Program.Image
import ArrayImage.Program.Linking

/-!
# ArrayImage.Program.Reader

Core programs from 32-bit little-endian ELF files.

`ProgramImage.ofBytes` checks the identification first, then all tables, then takes the loadable
segments in the order of the program headers. Tables are only checked for lying inside the file, and
strings for being UTF-8; fields that nothing depends on are ignored.
-/

namespace ArrayImage
namespace ProgramFile

def magic : List UInt8 := [0x7F, 0x45, 0x4C, 0x46]

/-- The first 16 bytes name a 32-bit little-endian file. -/
def checkIdent (file : List UInt8) : Except LoadError Unit :=
  if file.length < 16 ∨ file.take 4 ≠ magic then .error (.malformed "missing ELF magic")
  else if natAt file 4 1 ≠ 1 then .error .wrongClass
  else if natAt file 5 1 ≠ 1 then .error .wrongEndianness
  else .ok ()

/-- The headers, and all that they name for linkers, lie inside the file. -/
def isSound (file : List UInt8) : Bool :=
  tablesFit file && sectionsAreSound file && dynamicIsSound file

/-- The header is of a loadable segment with data. -/
def ProgramHeader.isLoadable (h : ProgramHeader) : Bool :=
  h.kind == 1 && h.size != 0

def ProgramHeader.segment (file : List UInt8) (h : ProgramHeader) : Except LoadError Segment :=
  if h.block.fits file then
    .ok ⟨UInt64.ofNat h.address, h.flags % 2 == 1, h.block.bytes file⟩
  else .error (.segmentBounds h.address)

/-- The segments of all program headers, or the error of the first one whose data are not in the
file. -/
def segments (file : List UInt8) : List ProgramHeader → Except LoadError (List Segment)
  | [] => .ok []
  | h :: rest => do
    if h.isLoadable then
      let s ← h.segment file
      let others ← segments file rest
      return s :: others
    else segments file rest

end ProgramFile

def ProgramImage.ofBytes (file : List UInt8) : Except LoadError ProgramImage := do
  ProgramFile.checkIdent file
  if ProgramFile.isSound file then
    return ⟨← ProgramFile.segments file (ProgramFile.programTable file)⟩
  else throw (.malformed "")

end ArrayImage
