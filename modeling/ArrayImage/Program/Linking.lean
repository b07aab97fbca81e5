import ArrayImage.Program.Header

/-!
# ArrayImage.Program.Linking

What an ELF file holds for linkers: strings, symbols, relocations and versions.

No segment depends on these, but a file where one of them does not lie inside the file is broken.
There are two ways to them. Sections name them by offsets, which `sectionsAreSound` follows. The
dynamic table names them by addresses in memory, which `dynamicIsSound` follows through the loadable
segments; the number of dynamic symbols is nowhere written and comes from a hash table and from the
relocations.
-/

namespace ArrayImage
namespace ProgramFile

def symbolSize : Nat := 16

def wordAt? (file : List UInt8) (offset : Nat) : Option Nat :=
  if (Block.mk offset 4).isReadable file then some (natAt file offset 4) else none

/-! ## Sections -/

namespace SectionHeader

def hasSymbols (s : SectionHeader) : Bool := s.kind == 2

def hasRelocations (s : SectionHeader) : Bool := s.kind == 4 || s.kind == 9

/-- The section says which version of a symbol is meant. -/
def hasSymbolVersions (s : SectionHeader) : Bool := s.kind == 0x6FFFFFFF

/-- The section has the versions that the file defines. -/
def hasDefinedVersions (s : SectionHeader) : Bool := s.kind == 0x6FFFFFFD

/-- The section has the versions that the file needs. -/
def hasNeededVersions (s : SectionHeader) : Bool := s.kind == 0x6FFFFFFE

end SectionHeader

/-- The section with this index. The last index of 16 bits stands for the section that the first one
links to. -/
def section? (sections : List SectionHeader) (index : Nat) : Option SectionHeader :=
  if index = 0xFFFF then sections.head?.bind fun first => sections[first.link]?
  else sections[index]?

/-- The section with this index, if there is one, holds strings. -/
def namesAreSound (file : List UInt8) (sections : List SectionHeader) (index : Nat) : Bool :=
  (section? sections index).all fun s => s.block.holdsStrings file

/-- The symbols of a section and their names. A section without a size for its symbols has none. -/
def symbolsAreSound (file : List UInt8) (sections : List SectionHeader) (s : SectionHeader) : Bool :=
  (Block.mk s.offset (symbolSize * (s.size / s.entrySize))).isReadable file &&
    namesAreSound file sections s.link

/-- All that sections name lies inside the file. Of several sections with symbols the last one
counts, of several with versions of one sort the first one. The names of versions are not looked
up. -/
def sectionsAreSound (file : List UInt8) : Bool :=
  let sections := sectionTable file
  namesAreSound file sections (header file).nameSection &&
    (sections.reverse.find? (·.hasSymbols)).all (symbolsAreSound file sections) &&
    (sections.filter (·.hasRelocations)).all (fun s => s.size == 0 || s.block.isReadable file) &&
    (sections.find? (·.hasSymbolVersions)).all (·.block.isReadable file) &&
    (sections.find? (·.hasDefinedVersions)).all (·.block.isReadable file) &&
    (sections.find? (·.hasNeededVersions)).all (·.block.isReadable file)

/-! ## The dynamic table -/

structure DynamicEntry where
  tag : Nat
  value : Nat

/-- The entries of a dynamic table before its end mark. -/
def dynamicEntries (table : List UInt8) : List DynamicEntry :=
  ((List.range (table.length / 8)).map fun i =>
    ⟨natAt table (8 * i) 4, natAt table (8 * i + 4) 4⟩).takeWhile (·.tag ≠ 0)

/-- The value with this tag. Of several ones the last one counts. -/
def dynamicValue? (entries : List DynamicEntry) (tag : Nat) : Option Nat :=
  (entries.reverse.find? (·.tag == tag)).map (·.value)

def ProgramHeader.covers (h : ProgramHeader) (address : Nat) : Bool :=
  h.kind == 1 && h.address ≤ address && address - h.address < h.memorySize

/-- Where an address in memory comes from in the file. -/
def fileOffset? (headers : List ProgramHeader) (address : Nat) : Option Nat :=
  (headers.find? (·.covers address)).map fun h => h.offset + (address - h.address)

/-- Relocations, with the size of one of them. -/
structure RelocationTable where
  block : Block
  entrySize : Nat

/-- The relocations lie inside the file. -/
def RelocationTable.isReadable (t : RelocationTable) (file : List UInt8) : Bool :=
  t.block.size == 0 || t.block.isReadable file

/-- The numbers of the symbols that relocations name. -/
def RelocationTable.symbols (t : RelocationTable) (file : List UInt8) : List Nat :=
  (List.range (t.block.size / t.entrySize)).map fun i =>
    natAt file (t.block.offset + t.entrySize * i + 4) 4 >>> 8

/-- What the dynamic table names, by offsets in the file. -/
structure Dynamic where
  strings : Block
  symbols : Nat
  relocations : List RelocationTable
  hashTable : Option Nat
  gnuHashTable : Option Nat

/-- What some entries name. An address that is not in memory stands for the start of the file. -/
def Dynamic.ofEntries (headers : List ProgramHeader) (entries : List DynamicEntry) : Dynamic :=
  let value (tag : Nat) := (dynamicValue? entries tag).getD 0
  let place? (tag : Nat) := (dynamicValue? entries tag).bind (fileOffset? headers)
  let block (address size : Nat) : Block := ⟨(place? address).getD 0, value size⟩
  { strings := block 5 10
    symbols := (place? 6).getD 0
    relocations := [⟨block 7 8, 12⟩, ⟨block 17 18, 8⟩, ⟨block 23 2, if value 20 = 7 then 12 else 8⟩]
    hashTable := place? 4
    gnuHashTable := place? 0x6FFFFEF5 }

/-! ## The number of dynamic symbols -/

/-- The number of words up to the first odd one. -/
def wordsToOdd? : List UInt8 → Option Nat
  | low :: _ :: _ :: _ :: rest =>
    if low.toNat % 2 = 1 then some 1 else (wordsToOdd? rest).map (· + 1)
  | _ => none

/-- The number of symbols that a hash table knows: it is the length of its chain. -/
def hashCount? (file : List UInt8) (table : Nat) : Option Nat :=
  wordAt? file (table + 4)

/-- The number of symbols that a GNU hash table knows. The last chain starts at the highest bucket
and ends with an odd word. -/
def gnuHashCount? (file : List UInt8) (table : Nat) : Option Nat := do
  let count ← wordAt? file table
  let first ← wordAt? file (table + 4)
  let filter ← wordAt? file (table + 8)
  guard (count ≠ 0 ∧ first ≠ 0 ∧ filter ≠ 0)
  let buckets : Block := ⟨table + 16 + 4 * filter, 4 * count⟩
  guard (buckets.isReadable file)
  let last := (List.range count).foldl (fun n i => max n (natAt file (buckets.offset + 4 * i) 4)) 0
  if last < first then return 0
  let chain := buckets.offset + buckets.size + 4 * (last - first)
  return last + (← wordsToOdd? (file.drop chain))

def Dynamic.hashedCount? (d : Dynamic) (file : List UInt8) : Option Nat :=
  match d.gnuHashTable, d.hashTable with
  | some table, _ => gnuHashCount? file table
  | none, some table => hashCount? file table
  | none, none => some 0

/-- The number of dynamic symbols: no relocation names a higher one. -/
def Dynamic.symbolCount? (d : Dynamic) (file : List UInt8) : Option Nat := do
  let hashed ← d.hashedCount? file
  let named := (d.relocations.flatMap (·.symbols file)).foldl max 0
  return if named = 0 then hashed else max hashed (named + 1)

/-- All that the dynamic table names lies inside the file. -/
def Dynamic.isSound (d : Dynamic) (file : List UInt8) : Bool :=
  d.strings.holdsStrings file &&
    d.relocations.all (·.isReadable file) &&
    (d.symbolCount? file).any fun count => (Block.mk d.symbols (symbolSize * count)).isReadable file

/-- The first dynamic table, if there is one, lies inside the file with all that it names. -/
def dynamicIsSound (file : List UInt8) : Bool :=
  let headers := programTable file
  (headers.find? (·.kind == 2)).all fun h =>
    (h.size == 0 || h.block.isReadable file) &&
      (Dynamic.ofEntries headers (dynamicEntries (h.block.bytes file))).isSound file

end ProgramFile
end ArrayImage
