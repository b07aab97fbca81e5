/-!
# ArrayImage.Description

What a design asks of the array: tiles, buffers, locks, DMA programs, stream-switch routes and
shim muxes. Parts refer to each other by name.
-/

namespace ArrayImage

/-! ## Tiles -/

/-- The role of a tile. -/
inductive TileKind where
  /-- A shim tile with a network interface and a DMA of its own. -/
  | shimNoc
  /-- A shim tile that only reaches programmable logic. -/
  | shimPl
  /-- A tile with a core and data memory. -/
  | compute
deriving DecidableEq

/-- The program of a compute tile. Without a file its name follows from the coordinates. -/
structure Core where
  programFile : Option String
deriving DecidableEq

/-- One declared tile. Without a kind, the kind follows from the coordinates. -/
structure Tile where
  column : UInt8
  row : UInt8
  declaredKind : Option TileKind
  core : Option Core
deriving DecidableEq

/-- The columns whose shim tile has a network interface. -/
def networkColumns : List UInt8 :=
  [2, 3, 6, 7, 10, 11, 18, 19, 26, 27, 34, 35, 42, 43, 46, 47]

namespace Tile

def kind (t : Tile) : TileKind :=
  match t.declaredKind with
  | some kind => kind
  | none =>
    if 0 < t.row then .compute
    else if networkColumns.contains t.column then .shimNoc
    else .shimPl

/-- Row 0 is the shim row, whatever kind is declared. -/
def isShim (t : Tile) : Bool :=
  t.row == 0

end Tile

/-! ## Memory -/

structure Buffer where
  name : String
  column : UInt8
  row : UInt8
  address : Option UInt64
  elementBits : UInt32
deriving DecidableEq

structure Lock where
  name : String
  column : UInt8
  row : UInt8
  id : UInt8
deriving DecidableEq

/-! ## DMA programs -/

/-- One of the two address registers of a descriptor. -/
inductive BufferSlot where
  | a
  | b
deriving DecidableEq

/-- The transfer of one buffer: `length` elements from `offset` bytes after its start. -/
structure Transfer where
  buffer : String
  slot : BufferSlot
  offset : UInt32
  length : UInt32
deriving DecidableEq

inductive LockAction where
  | acquire
  | release
deriving DecidableEq

/-- The use of a lock around a transfer. The value 255 matches every value. -/
structure LockUse where
  lock : String
  action : LockAction
  value : UInt32
deriving DecidableEq

/-- The header of the packets that a descriptor sends. -/
structure PacketTag where
  id : UInt8
  kind : UInt8
deriving DecidableEq

/-- One block of a descriptor chain. A block without transfers has no descriptor. -/
structure DmaBlock where
  label : String
  transfers : List Transfer
  locks : List LockUse
  packet : Option PacketTag
  next : Option String
deriving DecidableEq

/-- Which way a channel moves data: stream to memory or memory to stream. -/
inductive ChannelDirection where
  | s2mm
  | mm2s
deriving DecidableEq

/-- The command that starts a channel on a block. -/
structure ChannelStart where
  direction : ChannelDirection
  channel : UInt8
  block : String
deriving DecidableEq

structure MemoryDma where
  column : UInt8
  row : UInt8
  blocks : List DmaBlock
  starts : List ChannelStart
deriving DecidableEq

/-! ## Stream switches -/

/-- A group of stream-switch ports. -/
inductive Bundle where
  | core
  | dma
  | fifo
  | south
  | west
  | north
  | east
  | plio
  | noc
  | trace
  | ctrl
deriving DecidableEq

/-- One port of a bundle. -/
structure Port where
  bundle : Bundle
  index : UInt8
deriving DecidableEq

/-- A circuit from an input port to an output port. -/
structure Connect where
  source : Port
  dest : Port
deriving DecidableEq

/-- A named pair of an arbiter and a select value. -/
structure Amsel where
  name : String
  arbiter : UInt8
  msel : UInt8
deriving DecidableEq

/-- An output port that takes the packets of some amsels. -/
structure MasterSet where
  dest : Port
  amsels : List String
deriving DecidableEq

/-- Packets whose id agrees with `value` under `mask` go to an amsel. -/
structure PacketRule where
  mask : UInt8
  value : UInt8
  amsel : String
deriving DecidableEq

/-- The rules of one input port, in the order of their slots. -/
structure PacketTable where
  source : Port
  rules : List PacketRule
deriving DecidableEq

/-- The stream switch of one tile. -/
structure Switchbox where
  column : UInt8
  row : UInt8
  connects : List Connect
  amsels : List Amsel
  masterSets : List MasterSet
  packetTables : List PacketTable
deriving DecidableEq

namespace Switchbox

def isEmpty (s : Switchbox) : Bool :=
  s.connects.isEmpty && s.masterSets.isEmpty && s.packetTables.isEmpty

def amsel? (s : Switchbox) (name : String) : Option Amsel :=
  s.amsels.find? (·.name == name)

end Switchbox

structure ShimMux where
  column : UInt8
  row : UInt8
  connects : List Connect
deriving DecidableEq

/-! ## Devices -/

structure Device where
  schemaVersion : String
  name : String
  arrayOffset : UInt64
  tiles : List Tile
  buffers : List Buffer
  locks : List Lock
  memories : List MemoryDma
  switchboxes : List Switchbox
  shimMuxes : List ShimMux
deriving DecidableEq

namespace Device

/-- The first tile declared at these coordinates. -/
def tile? (d : Device) (column row : UInt8) : Option Tile :=
  d.tiles.find? fun t => t.column == column && t.row == row

def buffer? (d : Device) (name : String) : Option Buffer :=
  d.buffers.find? (·.name == name)

def lock? (d : Device) (name : String) : Option Lock :=
  d.locks.find? (·.name == name)

def addressOf? (d : Device) (buffer : String) : Option UInt64 :=
  (d.buffer? buffer).bind (·.address)

end Device
end ArrayImage
