import ArrayImage.Dma.Block

/-!
# ArrayImage.Dma.Chain

The third phase of a run: descriptor chains and channel starts.

The blocks of a tile that have a descriptor are numbered in order, and their numbers are the slots
of the descriptor table. Links and starts name blocks by label; a label without a descriptor has
slot `noDescriptor`, so links to it stay off and starts of it are left out.
-/

namespace ArrayImage

open RegisterMap

/-! ## Slots -/

/-- The place of the last `label` in a list. -/
def lastIndex? (label : String) : List String → Option Nat
  | [] => none
  | l :: rest =>
    match lastIndex? label rest with
    | some i => some (i + 1)
    | none => if l = label then some 0 else none

/-- The slot of a label: its place in the list. Places that are too large for a slot number, like
labels that are not in the list, have `noDescriptor`. -/
def slotOf (labels : List String) (label : String) : Nat :=
  match lastIndex? label labels with
  | some i => min i noDescriptor
  | none => noDescriptor

/-! ## Channels -/

def ChannelDirection.channels : ChannelDirection → Region
  | s2mm => s2mmChannels
  | mm2s => mm2sChannels

def ChannelDirection.controlOffset (d : ChannelDirection) (channel : Nat) : Nat :=
  d.channels.base + 0x8 * channel

def ChannelDirection.queueOffset (d : ChannelDirection) (channel : Nat) : Nat :=
  d.controlOffset channel + RegisterMap.queueOffset

/-- The control word of a channel that is on or off. -/
def channelWord (on : Bool) : Word :=
  Channel.enable.flag on ||| Channel.reset.flag false

def idleSteps (tile : TileId) : Script :=
  [ChannelDirection.s2mm, ChannelDirection.mm2s].flatMap fun direction =>
    (List.range channelCount).flatMap fun channel =>
      [Step.put tile (direction.controlOffset channel) (.put (channelWord false)),
        Step.put tile (direction.queueOffset channel) (.put 0)]

/-! ## The phase -/

/-- The steps that write the descriptor of a block, given the labels of all blocks with one. -/
def descriptorSteps (tile : TileId) (labels : List String) (block : DmaBlock) (d : Descriptor) :
    Script :=
  let slot := slotOf labels block.label
  let next := block.next.map (slotOf labels)
  if slot < descriptorCount then
    ((d.words next).map fun (offset, word) =>
      Step.put tile (descriptorOffset slot + offset) (.put word)) ++
      [.remark tile (.descriptor slot block.label (d.controlWord next))]
  else [.report tile (.noDescriptorLeft block.label slot)]

def ChannelStart.steps (tile : TileId) (labels : List String) (s : ChannelStart) : Script :=
  let slot := slotOf labels s.block
  if slot = noDescriptor then [.remark tile (.startLeftOut s.block)]
  else if s.channel.toNat < channelCount then
    [Step.put tile (s.direction.queueOffset s.channel.toNat)
        (.put (Channel.startDescriptor.set (.ofNat slot))),
      Step.put tile (s.direction.controlOffset s.channel.toNat) (.put (channelWord true))]
  else [.report tile (.noSuchChannel s.direction s.channel)]

/-- The blocks that have a descriptor. -/
def MemoryDma.described (d : Device) (addresses : AddressSource) (tile : TileId) (m : MemoryDma) :
    List (DmaBlock × Descriptor) :=
  m.blocks.filterMap fun block => ((block.describe d addresses tile).1).map (block, ·)

/-- The steps of one DMA program: all channels off, then the blocks, then the starts. -/
def MemoryDma.steps (d : Device) (addresses : AddressSource) (tile : TileId) (m : MemoryDma) :
    Script :=
  if tile.isShim then [.report tile .memoryOnShim]
  else
    let described := m.described d addresses tile
    let labels := described.map fun (block, _) => block.label
    idleSteps tile ++
      m.blocks.flatMap (fun block => (block.describe d addresses tile).2) ++
      described.flatMap (fun (block, descriptor) => descriptorSteps tile labels block descriptor) ++
      m.starts.flatMap (ChannelStart.steps tile labels)

def Device.dmaSteps (d : Device) (addresses : AddressSource) : Script :=
  d.memories.flatMap fun m =>
    Script.onTile d.arrayOffset.toNat m.column.toNat m.row.toNat fun tile =>
      m.steps d addresses tile

end ArrayImage
