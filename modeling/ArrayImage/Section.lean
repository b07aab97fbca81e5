import ArrayImage.RegisterMap
import ArrayImage.WriteLog

/-!
# ArrayImage.Section

Runs of consecutive words, the sections of an image.

`Section.group` joins neighbouring entries of a log: two entries are in one section exactly when
their addresses are four apart. Sections that start where something well known starts are named
after it.
-/

namespace ArrayImage

/-- Names of the places in a tile window at which a section may start. -/
def regionNames : List (Nat × String) :=
  [(RegisterMap.dataMemory.base, ".data.mem"),
    (RegisterMap.masterBase, ".ssmast"),
    (RegisterMap.slaveBase, ".ssslve"),
    (RegisterMap.slotBase, ".sspckt"),
    (RegisterMap.descriptorOffset 0, ".sdma.bd"),
    (RegisterMap.shimMux, ".shmmux"),
    (RegisterMap.descriptorOffset 10, ".sdma.ctl"),
    (RegisterMap.programMemory.base, ".prgm.mem"),
    (RegisterMap.s2mmChannels.base, ".tdma.ctl")]

/-- The name of what starts at `address` in its tile window. -/
def regionName? (address : Nat) : Option String :=
  regionNames.lookup (address % windowSize)

/-- Words at consecutive places from `address` on. -/
structure Section where
  address : Nat
  data : List Word
deriving DecidableEq

namespace Section

/-- The name of what starts where the section starts. -/
def name? (s : Section) : Option String :=
  regionName? s.address

def byteSize (s : Section) : Nat :=
  4 * s.data.length

def isEmpty (s : Section) : Bool :=
  s.data.isEmpty

/-- The address behind the last word. -/
def limit (s : Section) : Except Fault Nat :=
  checkedAdd 64 s.address s.byteSize

/-- Put an entry in front of sections: into the first one if it starts right behind the entry. -/
def cons (entry : Nat × Word) : List Section → List Section
  | s :: rest =>
    if entry.1 + 4 = s.address then ⟨entry.1, entry.2 :: s.data⟩ :: rest
    else ⟨entry.1, [entry.2]⟩ :: s :: rest
  | [] => [⟨entry.1, [entry.2]⟩]

/-- The entries as maximal runs of consecutive words. -/
def group (entries : List (Nat × Word)) : List Section :=
  entries.foldr cons []

end Section

/-- The sections of a log. Where another entry follows, the address behind each entry is needed,
so it must be in the address space. -/
def WriteLog.sections (log : WriteLog) : Except Fault (List Section) :=
  if log.entries.dropLast.all fun entry => entry.1 + 4 < 1 <<< 64 then .ok (Section.group log.entries)
  else .error .addOverflow

end ArrayImage
