import ArrayImage.Bytes

/-!
# ArrayImage.Container.NameTable

The table of section names inside an image.

The table has the empty name at its start and then every known name, each one ended by a zero
byte. A name is referred to by its place in the table.
-/

namespace ArrayImage
namespace NameTable

def ownName : String := ".shstrtab"

/-- All names in the order of the table. It is descending by the reversed names, so that a name
would stand right behind one that ends with it. -/
def names : List String :=
  [".shmmux", ".ssmast", ".sspckt", ".prgm.mem", ".data.mem", ".tdma.ctl", ".sdma.ctl", ".ssslve",
    "deprecated", ".tdma.bd", ".sdma.bd", ownName]

/-- A name as bytes with the zero behind it. -/
def entry (name : String) : List UInt8 :=
  name.toUTF8.toList ++ [0]

def bytes : List UInt8 :=
  0 :: names.flatMap entry

def placeIn (name : String) : List String → Nat → Option Nat
  | [], _ => none
  | n :: rest, place =>
    if n = name then some place else placeIn name rest (place + (entry n).length)

/-- The place of a name in the table. No name, and a name that is not in the table, is the empty
name at place 0. -/
def place (name : Option String) : Nat :=
  match name with
  | none => 0
  | some name => (placeIn name names 1).getD 0

end NameTable
end ArrayImage
