import Std.Data.ExtTreeMap
import ArrayImage.BitField
import ArrayImage.TileId

/-!
# ArrayImage.WriteLog

The register state of the whole array, by address.

A later write to a register replaces an earlier one, and a register that was never written reads
as zero, which is also what it holds after power-up. The log keeps its words in the order of their
addresses, which is the order of arrays, columns, rows and offsets.
-/

namespace ArrayImage

/-- What a write does to the word in its register. -/
inductive Update where
  /-- Replace the word. -/
  | put (value : Word)
  /-- Turn on some bits of the word. -/
  | raise (bits : Word)

def Update.on : Update → Word → Word
  | put value, _ => value
  | raise bits, word => word ||| bits

/-- A write to one register. Tiles of column 0 have no registers. -/
structure Write where
  register : Register
  update : Update
  column_pos : 0 < register.tile.column

namespace Write

def address (w : Write) : Nat :=
  w.register.address

/-- A write to `offset` of `tile`: the column is checked first, then the offset. -/
def at? (tile : TileId) (offset : Nat) (update : Update) : Except Fault Write :=
  if hc : 0 < tile.column then
    if ho : offset < windowSize then .ok ⟨⟨tile, offset, ho⟩, update, hc⟩
    else .error (.writeOutsideWindow tile.column tile.row offset)
  else .error (.writeToColumnZero offset)

end Write

/-- The registers written so far and their words. -/
structure WriteLog where
  words : Std.ExtTreeMap Nat Word

namespace WriteLog

def empty : WriteLog :=
  ⟨∅⟩

/-- The word at `address`, when something was written there. -/
def get? (log : WriteLog) (address : Nat) : Option Word :=
  log.words[address]?

/-- The word at `address`, zero when nothing was written there. -/
def wordAt (log : WriteLog) (address : Nat) : Word :=
  (log.get? address).getD 0

def read (log : WriteLog) (tile : TileId) (offset : Nat) : Word :=
  log.wordAt (tile.address offset)

def apply (log : WriteLog) (w : Write) : WriteLog :=
  ⟨log.words.insert w.address (w.update.on (log.wordAt w.address))⟩

/-- The log after several writes, first to last. -/
def applyAll (log : WriteLog) (writes : List Write) : WriteLog :=
  writes.foldl apply log

/-- All written words with their addresses, in ascending order. -/
def entries (log : WriteLog) : List (Nat × Word) :=
  log.words.toList

def size (log : WriteLog) : Nat :=
  log.words.size

def isEmpty (log : WriteLog) : Bool :=
  log.words.isEmpty

end WriteLog
end ArrayImage
