import ArrayImage.Bytes

/-!
# ArrayImage.Program.Header

The headers of 32-bit little-endian ELF files: the file header, the program headers and the section
headers.

`tablesFit` says that all of them lie inside the file. What is read from a file without them is of no
use, since bytes past the end are left out.
-/

namespace ArrayImage
namespace ProgramFile

/-! ## Blocks -/

structure Block where
  offset : Nat
  size : Nat

namespace Block

def fits (b : Block) (file : List UInt8) : Bool :=
  b.offset + b.size ≤ file.length

/-- The block lies inside the file, and even an empty one starts before the end. -/
def isReadable (b : Block) (file : List UInt8) : Bool :=
  b.offset < file.length && b.fits file

def bytes (b : Block) (file : List UInt8) : List UInt8 :=
  (file.drop b.offset).take b.size

/-- The block lies inside the file and its strings, one after the other, are UTF-8. -/
def holdsStrings (b : Block) (file : List UInt8) : Bool :=
  b.fits file && (String.fromUTF8? ⟨(b.bytes file).toArray⟩).isSome

end Block

/-! ## The file header -/

def headerSize : Nat := 52

def programHeaderSize : Nat := 32

def sectionHeaderSize : Nat := 40

structure Header where
  programOffset : Nat
  programCount : Nat
  sectionOffset : Nat
  sectionCount : Nat
  /-- The index of the section with the names of sections. -/
  nameSection : Nat

/-- The file header of a file that is long enough. -/
def header (file : List UInt8) : Header where
  programOffset := natAt file 28 4
  sectionOffset := natAt file 32 4
  programCount := natAt file 44 2
  sectionCount := natAt file 48 2
  nameSection := natAt file 50 2

/-! ## Program headers -/

/-- The program headers lie inside the file. -/
def programTableFits (size : Nat) (h : Header) : Bool :=
  h.programCount == 0 ||
    (h.programCount ≤ size / programHeaderSize &&
      h.programOffset + programHeaderSize * h.programCount ≤ size)

structure ProgramHeader where
  kind : Nat
  offset : Nat
  address : Nat
  /-- The size in the file. -/
  size : Nat
  /-- The size in memory. -/
  memorySize : Nat
  flags : Nat

def ProgramHeader.ofBytes (table : List UInt8) : ProgramHeader where
  kind := natAt table 0 4
  offset := natAt table 4 4
  address := natAt table 8 4
  size := natAt table 16 4
  memorySize := natAt table 20 4
  flags := natAt table 24 4

def programHeaders : (count : Nat) → (table : List UInt8) → List ProgramHeader
  | 0, _ => []
  | count + 1, table => .ofBytes table :: programHeaders count (table.drop programHeaderSize)

/-- The program headers of a file. -/
def programTable (file : List UInt8) : List ProgramHeader :=
  let h := header file
  programHeaders h.programCount (file.drop h.programOffset)

def ProgramHeader.block (h : ProgramHeader) : Block :=
  ⟨h.offset, h.size⟩

/-! ## Section headers -/

/-- The number of section headers. A file with too many of them for its header has the number in
the size field of the first one. -/
def sectionHeaderCount (file : List UInt8) (h : Header) : Nat :=
  if h.sectionCount = 0 then natAt file (h.sectionOffset + 20) 4 else h.sectionCount

/-- The section headers lie inside the file, and so does the first one even if there are none. A
file without section headers has them at 0. -/
def sectionTableFits (file : List UInt8) (h : Header) : Bool :=
  let count := sectionHeaderCount file h
  h.sectionOffset == 0 ||
    (h.sectionOffset + sectionHeaderSize ≤ file.length &&
      count ≤ file.length / sectionHeaderSize &&
      h.sectionOffset + sectionHeaderSize * count ≤ file.length)

structure SectionHeader where
  kind : Nat
  offset : Nat
  size : Nat
  /-- The index of a section that this one needs. -/
  link : Nat
  entrySize : Nat

/-- The section header that starts a table. -/
def SectionHeader.ofBytes (table : List UInt8) : SectionHeader where
  kind := natAt table 4 4
  offset := natAt table 16 4
  size := natAt table 20 4
  link := natAt table 24 4
  entrySize := natAt table 36 4

/-- The section headers of a file, with the first one even if there are none. -/
def sectionTable (file : List UInt8) : List SectionHeader :=
  let h := header file
  if h.sectionOffset = 0 then []
  else
    (List.range (max 1 (sectionHeaderCount file h))).map fun i =>
      .ofBytes (file.drop (h.sectionOffset + sectionHeaderSize * i))

def SectionHeader.block (h : SectionHeader) : Block :=
  ⟨h.offset, h.size⟩

/-! ## All headers -/

/-- The header and both tables lie inside the file. -/
def tablesFit (file : List UInt8) : Bool :=
  headerSize ≤ file.length && programTableFits file.length (header file) &&
    sectionTableFits file (header file)

end ProgramFile
end ArrayImage
