import ArrayImage.Container.NameTable
import ArrayImage.Section

/-!
# ArrayImage.Container.Image

The file format of an image: a 64-bit little-endian ELF file without segments.

The file header is followed by the data of all sections without gaps, the name table, zeros up to
a multiple of eight, and the section headers: the null header, the one of the name table, and one
for each section in order.
-/

namespace ArrayImage
namespace Container

/-- The size of the file header, and of each section header. -/
def headerSize : Nat := 64

/-- From this number on, the number of section headers stands in the null header. -/
def manySections : Nat := 0xFF00

structure SectionHeader where
  name : Nat := 0
  kind : Nat := 0
  flags : Nat := 0
  address : Nat := 0
  offset : Nat := 0
  size : Nat := 0
  align : Nat := 0

namespace SectionHeader

/-- The bytes of a section header. Link, info and entry size are not used. -/
def bytes (h : SectionHeader) : List UInt8 :=
  bytesOfNat 4 h.name ++ bytesOfNat 4 h.kind ++ bytesOfNat 8 h.flags ++ bytesOfNat 8 h.address ++
    bytesOfNat 8 h.offset ++ bytesOfNat 8 h.size ++ bytesOfNat 4 0 ++ bytesOfNat 4 0 ++
    bytesOfNat 8 h.align ++ bytesOfNat 8 0

end SectionHeader

def sectionBytes (s : Section) : List UInt8 :=
  s.data.flatMap fun word => bytesOfNat 4 word.toNat

def dataSize (sections : List Section) : Nat :=
  sections.foldr (·.byteSize + ·) 0

def namesOffset (sections : List Section) : Nat :=
  headerSize + dataSize sections

/-- Where the section headers start: at the next multiple of eight behind the name table. -/
def headersOffset (sections : List Section) : Nat :=
  (namesOffset sections + NameTable.bytes.length + 7) / 8 * 8

def padding (sections : List Section) : List UInt8 :=
  List.replicate (headersOffset sections - (namesOffset sections + NameTable.bytes.length)) 0

def headerCount (sections : List Section) : Nat :=
  sections.length + 2

/-- The first 16 bytes: a 64-bit little-endian file for the GNU system. -/
def ident : List UInt8 :=
  [0x7F, 0x45, 0x4C, 0x46, 2, 1, 1, 3, 0, 0, 0, 0, 0, 0, 0, 0]

def machine : Nat := 225

/-- The file header. The name table is section 1. -/
def fileHeader (sections : List Section) : List UInt8 :=
  let count := headerCount sections
  ident ++ bytesOfNat 2 0 ++ bytesOfNat 2 machine ++ bytesOfNat 4 1 ++ bytesOfNat 8 0 ++
    bytesOfNat 8 0 ++ bytesOfNat 8 (headersOffset sections) ++ bytesOfNat 4 0 ++
    bytesOfNat 2 headerSize ++ bytesOfNat 2 0 ++ bytesOfNat 2 0 ++ bytesOfNat 2 headerSize ++
    bytesOfNat 2 (if count < manySections then count else 0) ++ bytesOfNat 2 1

/-- The null header. It has the number of headers when that is too large for the file header. -/
def nullHeader (sections : List Section) : SectionHeader :=
  let count := headerCount sections
  { size := if count < manySections then 0 else count }

def namesHeader (sections : List Section) : SectionHeader :=
  { name := NameTable.place (some NameTable.ownName), kind := 3, offset := namesOffset sections,
    size := NameTable.bytes.length, align := 1 }

/-- The headers of sections whose data start at `offset` and follow each other. -/
def dataHeaders : List Section → (offset : Nat) → List SectionHeader
  | [], _ => []
  | s :: rest, offset =>
    { name := NameTable.place s.name?, kind := 1, flags := 2, address := s.address, offset,
      size := s.byteSize, align := 1 } :: dataHeaders rest (offset + s.byteSize)

def headers (sections : List Section) : List SectionHeader :=
  nullHeader sections :: namesHeader sections :: dataHeaders sections headerSize

/-- The bytes of the image of some sections. -/
def encode (sections : List Section) : List UInt8 :=
  fileHeader sections ++ sections.flatMap sectionBytes ++ NameTable.bytes ++ padding sections ++
    (headers sections).flatMap SectionHeader.bytes

end Container

/-! ## Writing -/

/-- Why an image cannot be written: the text of the failed output. -/
structure WriteError where
  cause : String

/-- The texts of a write error, from the outermost to the cause. -/
def WriteError.chain (e : WriteError) : List String :=
  ["Failed to emit configuration image", "Failed to write the configuration image", e.cause]

end ArrayImage
