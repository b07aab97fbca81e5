import ArrayImage.Description.Names
import ArrayImage.Schema.Shape

/-!
# ArrayImage.Schema.Device

The description format: the shape of each part of a design, the part as data, and the data as the
part. For every part `ofValue?` takes back what `toValue` gives.
-/

namespace ArrayImage

def Shape.byte : Shape := .number 8

def Shape.word : Shape := .number 32

def Shape.long : Shape := .number 64

def Presence.emptyList : Presence := .default (.list [])

/-- The value with a given name, among all values of a type. -/
def choice? {α : Type} (all : List α) (name : α → String) : Value → Option α
  | .text s => all.find? fun a => name a == s
  | _ => none

/-! ## Tiles -/

namespace TileKind

def shape : Shape := .choice (all.map name)
def toValue (k : TileKind) : Value := .text k.name
def ofValue? : Value → Option TileKind := choice? all name

end TileKind

namespace Core

def shape : Shape :=
  .record "Core" (.ofList [("elf_file", .optional, .text)])

def toValue (c : Core) : Value :=
  .record [("elf_file", .ofOptional .text c.programFile)]

def ofValue? : Value → Option Core
  | .record [(_, file)] => do return ⟨← file.optional? Value.text?⟩
  | _ => none

end Core

namespace Tile

def shape : Shape :=
  .record "Tile" (.ofList
    [("col", .required, .byte), ("row", .required, .byte), ("kind", .optional, TileKind.shape),
      ("core", .optional, Core.shape)])

def toValue (t : Tile) : Value :=
  .record
    [("col", .ofByte t.column), ("row", .ofByte t.row),
      ("kind", .ofOptional TileKind.toValue t.declaredKind),
      ("core", .ofOptional Core.toValue t.core)]

def ofValue? : Value → Option Tile
  | .record [(_, column), (_, row), (_, kind), (_, core)] => do
    return ⟨← column.byte?, ← row.byte?, ← kind.optional? TileKind.ofValue?,
      ← core.optional? Core.ofValue?⟩
  | _ => none

end Tile

/-! ## Memory -/

namespace Buffer

def shape : Shape :=
  .record "Buffer" (.ofList
    [("name", .required, .text), ("col", .required, .byte), ("row", .required, .byte),
      ("address", .optional, .long), ("element_bits", .default (.number 32), .word)])

def toValue (b : Buffer) : Value :=
  .record
    [("name", .text b.name), ("col", .ofByte b.column), ("row", .ofByte b.row),
      ("address", .ofOptional .ofLong b.address), ("element_bits", .ofWord b.elementBits)]

def ofValue? : Value → Option Buffer
  | .record [(_, name), (_, column), (_, row), (_, address), (_, bits)] => do
    return ⟨← name.text?, ← column.byte?, ← row.byte?, ← address.optional? Value.long?,
      ← bits.word?⟩
  | _ => none

end Buffer

namespace Lock

def shape : Shape :=
  .record "Lock" (.ofList
    [("name", .required, .text), ("col", .required, .byte), ("row", .required, .byte),
      ("id", .required, .byte)])

def toValue (l : Lock) : Value :=
  .record
    [("name", .text l.name), ("col", .ofByte l.column), ("row", .ofByte l.row),
      ("id", .ofByte l.id)]

def ofValue? : Value → Option Lock
  | .record [(_, name), (_, column), (_, row), (_, id)] => do
    return ⟨← name.text?, ← column.byte?, ← row.byte?, ← id.byte?⟩
  | _ => none

end Lock

/-! ## DMA programs -/

namespace BufferSlot

def shape : Shape := .choice (all.map name)
def toValue (s : BufferSlot) : Value := .text s.name
def ofValue? : Value → Option BufferSlot := choice? all name

end BufferSlot

namespace Transfer

def shape : Shape :=
  .record "BdTransfer" (.ofList
    [("buffer", .required, .text), ("slot", .default (.text "a"), BufferSlot.shape),
      ("offset", .default (.number 0), .word), ("len", .required, .word)])

def toValue (t : Transfer) : Value :=
  .record
    [("buffer", .text t.buffer), ("slot", t.slot.toValue), ("offset", .ofWord t.offset),
      ("len", .ofWord t.length)]

def ofValue? : Value → Option Transfer
  | .record [(_, buffer), (_, slot), (_, offset), (_, length)] => do
    return ⟨← buffer.text?, ← BufferSlot.ofValue? slot, ← offset.word?, ← length.word?⟩
  | _ => none

end Transfer

namespace LockAction

def shape : Shape := .choice (all.map name)
def toValue (a : LockAction) : Value := .text a.name
def ofValue? : Value → Option LockAction := choice? all name

end LockAction

namespace LockUse

def shape : Shape :=
  .record "LockUse" (.ofList
    [("lock", .required, .text), ("action", .required, LockAction.shape),
      ("value", .required, .word)])

def toValue (u : LockUse) : Value :=
  .record [("lock", .text u.lock), ("action", u.action.toValue), ("value", .ofWord u.value)]

def ofValue? : Value → Option LockUse
  | .record [(_, lock), (_, action), (_, value)] => do
    return ⟨← lock.text?, ← LockAction.ofValue? action, ← value.word?⟩
  | _ => none

end LockUse

namespace PacketTag

def shape : Shape :=
  .record "PacketTag" (.ofList [("id", .required, .byte), ("type", .required, .byte)])

def toValue (t : PacketTag) : Value :=
  .record [("id", .ofByte t.id), ("type", .ofByte t.kind)]

def ofValue? : Value → Option PacketTag
  | .record [(_, id), (_, kind)] => do return ⟨← id.byte?, ← kind.byte?⟩
  | _ => none

end PacketTag

namespace DmaBlock

def shape : Shape :=
  .record "DmaBlock" (.ofList
    [("label", .required, .text), ("transfers", .emptyList, .list Transfer.shape),
      ("locks", .emptyList, .list LockUse.shape), ("packet", .optional, PacketTag.shape),
      ("next", .optional, .text)])

def toValue (b : DmaBlock) : Value :=
  .record
    [("label", .text b.label), ("transfers", .ofList Transfer.toValue b.transfers),
      ("locks", .ofList LockUse.toValue b.locks),
      ("packet", .ofOptional PacketTag.toValue b.packet), ("next", .ofOptional .text b.next)]

def ofValue? : Value → Option DmaBlock
  | .record [(_, label), (_, transfers), (_, locks), (_, packet), (_, next)] => do
    return ⟨← label.text?, ← transfers.list? Transfer.ofValue?, ← locks.list? LockUse.ofValue?,
      ← packet.optional? PacketTag.ofValue?, ← next.optional? Value.text?⟩
  | _ => none

end DmaBlock

namespace ChannelDirection

def shape : Shape := .choice (all.map name)
def toValue (d : ChannelDirection) : Value := .text d.name
def ofValue? : Value → Option ChannelDirection := choice? all name

end ChannelDirection

namespace ChannelStart

def shape : Shape :=
  .record "DmaStart" (.ofList
    [("direction", .required, ChannelDirection.shape), ("channel", .required, .byte),
      ("block", .required, .text)])

def toValue (s : ChannelStart) : Value :=
  .record
    [("direction", s.direction.toValue), ("channel", .ofByte s.channel), ("block", .text s.block)]

def ofValue? : Value → Option ChannelStart
  | .record [(_, direction), (_, channel), (_, block)] => do
    return ⟨← ChannelDirection.ofValue? direction, ← channel.byte?, ← block.text?⟩
  | _ => none

end ChannelStart

namespace MemoryDma

def shape : Shape :=
  .record "MemDma" (.ofList
    [("col", .required, .byte), ("row", .required, .byte),
      ("blocks", .emptyList, .list DmaBlock.shape),
      ("starts", .emptyList, .list ChannelStart.shape)])

def toValue (m : MemoryDma) : Value :=
  .record
    [("col", .ofByte m.column), ("row", .ofByte m.row),
      ("blocks", .ofList DmaBlock.toValue m.blocks),
      ("starts", .ofList ChannelStart.toValue m.starts)]

def ofValue? : Value → Option MemoryDma
  | .record [(_, column), (_, row), (_, blocks), (_, starts)] => do
    return ⟨← column.byte?, ← row.byte?, ← blocks.list? DmaBlock.ofValue?,
      ← starts.list? ChannelStart.ofValue?⟩
  | _ => none

end MemoryDma

/-! ## Stream switches -/

namespace Bundle

def shape : Shape := .choice (all.map name)
def toValue (b : Bundle) : Value := .text b.name
def ofValue? : Value → Option Bundle := choice? all name

end Bundle

namespace Port

def shape : Shape :=
  .record "Port" (.ofList [("bundle", .required, Bundle.shape), ("index", .required, .byte)])

def toValue (p : Port) : Value :=
  .record [("bundle", p.bundle.toValue), ("index", .ofByte p.index)]

def ofValue? : Value → Option Port
  | .record [(_, bundle), (_, index)] => do return ⟨← Bundle.ofValue? bundle, ← index.byte?⟩
  | _ => none

end Port

namespace Connect

def shape : Shape :=
  .record "Connect" (.ofList
    [("source", .required, Port.shape), ("dest", .required, Port.shape)])

def toValue (c : Connect) : Value :=
  .record [("source", c.source.toValue), ("dest", c.dest.toValue)]

def ofValue? : Value → Option Connect
  | .record [(_, source), (_, dest)] => do return ⟨← Port.ofValue? source, ← Port.ofValue? dest⟩
  | _ => none

end Connect

namespace Amsel

def shape : Shape :=
  .record "Amsel" (.ofList
    [("name", .required, .text), ("arbiter", .required, .byte), ("msel", .required, .byte)])

def toValue (a : Amsel) : Value :=
  .record [("name", .text a.name), ("arbiter", .ofByte a.arbiter), ("msel", .ofByte a.msel)]

def ofValue? : Value → Option Amsel
  | .record [(_, name), (_, arbiter), (_, msel)] => do
    return ⟨← name.text?, ← arbiter.byte?, ← msel.byte?⟩
  | _ => none

end Amsel

namespace MasterSet

def shape : Shape :=
  .record "MasterSet" (.ofList
    [("dest", .required, Port.shape), ("amsels", .required, .list .text)])

def toValue (m : MasterSet) : Value :=
  .record [("dest", m.dest.toValue), ("amsels", .ofList .text m.amsels)]

def ofValue? : Value → Option MasterSet
  | .record [(_, dest), (_, amsels)] => do
    return ⟨← Port.ofValue? dest, ← amsels.list? Value.text?⟩
  | _ => none

end MasterSet

namespace PacketRule

def shape : Shape :=
  .record "PacketRule" (.ofList
    [("mask", .required, .byte), ("value", .required, .byte), ("amsel", .required, .text)])

def toValue (r : PacketRule) : Value :=
  .record [("mask", .ofByte r.mask), ("value", .ofByte r.value), ("amsel", .text r.amsel)]

def ofValue? : Value → Option PacketRule
  | .record [(_, mask), (_, value), (_, amsel)] => do
    return ⟨← mask.byte?, ← value.byte?, ← amsel.text?⟩
  | _ => none

end PacketRule

namespace PacketTable

def shape : Shape :=
  .record "PacketRules" (.ofList
    [("source", .required, Port.shape), ("rules", .required, .list PacketRule.shape)])

def toValue (t : PacketTable) : Value :=
  .record [("source", t.source.toValue), ("rules", .ofList PacketRule.toValue t.rules)]

def ofValue? : Value → Option PacketTable
  | .record [(_, source), (_, rules)] => do
    return ⟨← Port.ofValue? source, ← rules.list? PacketRule.ofValue?⟩
  | _ => none

end PacketTable

namespace Switchbox

def shape : Shape :=
  .record "Switchbox" (.ofList
    [("col", .required, .byte), ("row", .required, .byte),
      ("connects", .emptyList, .list Connect.shape), ("amsels", .emptyList, .list Amsel.shape),
      ("master_sets", .emptyList, .list MasterSet.shape),
      ("packet_rules", .emptyList, .list PacketTable.shape)])

def toValue (s : Switchbox) : Value :=
  .record
    [("col", .ofByte s.column), ("row", .ofByte s.row),
      ("connects", .ofList Connect.toValue s.connects),
      ("amsels", .ofList Amsel.toValue s.amsels),
      ("master_sets", .ofList MasterSet.toValue s.masterSets),
      ("packet_rules", .ofList PacketTable.toValue s.packetTables)]

def ofValue? : Value → Option Switchbox
  | .record [(_, column), (_, row), (_, connects), (_, amsels), (_, masters), (_, tables)] => do
    return ⟨← column.byte?, ← row.byte?, ← connects.list? Connect.ofValue?,
      ← amsels.list? Amsel.ofValue?, ← masters.list? MasterSet.ofValue?,
      ← tables.list? PacketTable.ofValue?⟩
  | _ => none

end Switchbox

namespace ShimMux

def shape : Shape :=
  .record "ShimMux" (.ofList
    [("col", .required, .byte), ("row", .default (.number 0), .byte),
      ("connects", .emptyList, .list Connect.shape)])

def toValue (m : ShimMux) : Value :=
  .record
    [("col", .ofByte m.column), ("row", .ofByte m.row),
      ("connects", .ofList Connect.toValue m.connects)]

def ofValue? : Value → Option ShimMux
  | .record [(_, column), (_, row), (_, connects)] => do
    return ⟨← column.byte?, ← row.byte?, ← connects.list? Connect.ofValue?⟩
  | _ => none

end ShimMux

/-! ## Devices -/

namespace Device

def shape : Shape :=
  .record "Device" (.ofList
    [("schema_version", .default (.text "1.0"), .text), ("name", .required, .text),
      ("array_offset", .default (.number 0), .long), ("tiles", .required, .list Tile.shape),
      ("buffers", .emptyList, .list Buffer.shape), ("locks", .emptyList, .list Lock.shape),
      ("mems", .emptyList, .list MemoryDma.shape),
      ("switchboxes", .emptyList, .list Switchbox.shape),
      ("shim_muxes", .emptyList, .list ShimMux.shape)])

def toValue (d : Device) : Value :=
  .record
    [("schema_version", .text d.schemaVersion), ("name", .text d.name),
      ("array_offset", .ofLong d.arrayOffset), ("tiles", .ofList Tile.toValue d.tiles),
      ("buffers", .ofList Buffer.toValue d.buffers), ("locks", .ofList Lock.toValue d.locks),
      ("mems", .ofList MemoryDma.toValue d.memories),
      ("switchboxes", .ofList Switchbox.toValue d.switchboxes),
      ("shim_muxes", .ofList ShimMux.toValue d.shimMuxes)]

def ofValue? : Value → Option Device
  | .record [(_, version), (_, name), (_, offset), (_, tiles), (_, buffers), (_, locks), (_, mems),
      (_, switchboxes), (_, muxes)] => do
    return ⟨← version.text?, ← name.text?, ← offset.long?, ← tiles.list? Tile.ofValue?,
      ← buffers.list? Buffer.ofValue?, ← locks.list? Lock.ofValue?,
      ← mems.list? MemoryDma.ofValue?, ← switchboxes.list? Switchbox.ofValue?,
      ← muxes.list? ShimMux.ofValue?⟩
  | _ => none

end Device
end ArrayImage
