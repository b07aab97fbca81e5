import ArrayImage.Container.Image
import ArrayImage.Program.Image

/-!
# ArrayImage.Container.Reader

Images read back from their bytes.

`read?` finds the section headers through the file header, and everything else through the section
headers. It relies on no particular layout of the file.
-/

namespace ArrayImage
namespace Container

def SectionHeader.ofBytes (file : List UInt8) (place : Nat) : SectionHeader where
  name := natAt file place 4
  kind := natAt file (place + 4) 4
  flags := natAt file (place + 8) 8
  address := natAt file (place + 16) 8
  offset := natAt file (place + 24) 8
  size := natAt file (place + 32) 8
  align := natAt file (place + 48) 8

def tableOffset (file : List UInt8) : Nat :=
  natAt file 40 8

/-- The number of section headers of a file. If the file header has none, it is the size in the
first section header. -/
def tableLength (file : List UInt8) : Nat :=
  match natAt file 60 2 with
  | 0 => (SectionHeader.ofBytes file (tableOffset file)).size
  | count => count

/-- The section headers of a file, if they lie inside it. -/
def table? (file : List UInt8) : Option (List SectionHeader) := do
  let count := tableLength file
  guard (tableOffset file + headerSize * count ≤ file.length)
  return (List.range count).map fun i => .ofBytes file (tableOffset file + headerSize * i)

/-- The bytes that a section header speaks of, if they lie inside the file. -/
def SectionHeader.contents? (file : List UInt8) (h : SectionHeader) : Option (List UInt8) := do
  guard (h.offset + h.size ≤ file.length)
  return (file.drop h.offset).take h.size

def nameAt (names : List UInt8) (place : Nat) : List UInt8 :=
  (names.drop place).takeWhile (· ≠ 0)

/-- A section and the bytes of its name. -/
def SectionHeader.section? (file names : List UInt8) (h : SectionHeader) :
    Option (List UInt8 × Section) := do
  guard (h.kind = 1 ∧ h.size % 4 = 0)
  let contents ← h.contents? file
  return (nameAt names h.name, ⟨h.address, wordsOfBytes contents⟩)

/-- The sections of an image with the bytes of their names. The first header says nothing about a
section, and the second one is that of the name table. -/
def read? (file : List UInt8) : Option (List (List UInt8 × Section)) := do
  guard (file.take ident.length = ident ∧ natAt file 18 2 = machine)
  let headers ← table? file
  let names ← (← headers[natAt file 62 2]?).contents? file
  (headers.drop 2).mapM fun h => h.section? file names

end Container
end ArrayImage
