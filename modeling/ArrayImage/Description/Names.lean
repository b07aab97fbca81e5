import ArrayImage.Description

/-!
# ArrayImage.Description.Names

The names of the values of small types: `name` is the name in a description and `title` the name
in messages. `all` lists the values in the order in which messages list them.
-/

namespace ArrayImage

namespace TileKind

def all : List TileKind := [shimNoc, shimPl, compute]

def name : TileKind → String
  | shimNoc => "shim_noc"
  | shimPl => "shim_pl"
  | compute => "compute"

def title : TileKind → String
  | shimNoc => "ShimNoc"
  | shimPl => "ShimPl"
  | compute => "Compute"

end TileKind

namespace BufferSlot

def all : List BufferSlot := [a, b]

def name : BufferSlot → String
  | a => "a"
  | b => "b"

def title : BufferSlot → String
  | a => "A"
  | b => "B"

end BufferSlot

namespace LockAction

def all : List LockAction := [acquire, release]

def name : LockAction → String
  | acquire => "acquire"
  | release => "release"

end LockAction

namespace ChannelDirection

def all : List ChannelDirection := [s2mm, mm2s]

def name : ChannelDirection → String
  | s2mm => "s2mm"
  | mm2s => "mm2s"

def title : ChannelDirection → String
  | s2mm => "S2mm"
  | mm2s => "Mm2s"

end ChannelDirection

namespace Bundle

def all : List Bundle :=
  [core, dma, fifo, south, west, north, east, plio, noc, trace, ctrl]

def name : Bundle → String
  | core => "core"
  | dma => "dma"
  | fifo => "fifo"
  | south => "south"
  | west => "west"
  | north => "north"
  | east => "east"
  | plio => "plio"
  | noc => "noc"
  | trace => "trace"
  | ctrl => "ctrl"

def title : Bundle → String
  | core => "Core"
  | dma => "Dma"
  | fifo => "Fifo"
  | south => "South"
  | west => "West"
  | north => "North"
  | east => "East"
  | plio => "Plio"
  | noc => "Noc"
  | trace => "Trace"
  | ctrl => "Ctrl"

end Bundle
end ArrayImage
