import ArrayImage.BitField
import ArrayImage.Fault

/-!
# ArrayImage.RegisterMap

Where things are in the window of a tile: memories, descriptor tables, channels, stream-switch
registers and the shim mux, and the fields of the words that are written there.
-/

namespace ArrayImage

/-- `size` bytes from `base` on in the window of a tile. -/
structure Region where
  base : Nat
  size : Nat

namespace RegisterMap

/-! ## Memories -/

/-- Data memory of a compute tile. -/
def dataMemory : Region := ⟨0x00000, 0x8000⟩

/-- Program memory of a compute tile. -/
def programMemory : Region := ⟨0x20000, 0x4000⟩

/-! ## Memory DMA -/

def descriptorCount : Nat := 16

/-- The descriptors of a compute tile, 32 bytes each. -/
def descriptors : Region := ⟨0x1D000, descriptorCount * 0x20⟩

/-- How many channels a direction has. -/
def channelCount : Nat := 2

/-- The channels that write into memory, eight bytes each. -/
def s2mmChannels : Region := ⟨0x1DE00, channelCount * 0x8⟩

/-- The channels that read from memory, eight bytes each. -/
def mm2sChannels : Region := ⟨0x1DE10, channelCount * 0x8⟩

/-- From the control register of a channel to its start queue. -/
def queueOffset : Nat := 0x4

/-- The descriptors of a shim tile, 20 bytes each. -/
def shimDescriptors : Region := ⟨0x1D000, 16 * 0x14⟩

/-- The place of descriptor `index`. -/
def descriptorOffset (index : Nat) : Nat :=
  descriptors.base + index * 0x20

/-- The place of descriptor `index` in 32-bit arithmetic. -/
def descriptorOffset? (index : Nat) : Except Fault Nat := do
  let skipped ← checkedMul 32 index 0x20
  checkedAdd 32 descriptors.base skipped

/-! ## Stream switch -/

def masterBase : Nat := 0x3F000

def slaveBase : Nat := 0x3F100

def slotBase : Nat := 0x3F200

/-- How many packet slots a slave port has. -/
def slotsPerPort : Nat := 4

def computeMasters : Region := ⟨masterBase, 0x64⟩

def computeSlaves : Region := ⟨slaveBase, 0x6C⟩

/-- Packet slots of a compute tile: 26 ports of four words. -/
def computeSlots : Region := ⟨slotBase, 26 * 0x10⟩

def shimMasters : Region := ⟨masterBase, 0x5C⟩

def shimSlaves : Region := ⟨slaveBase, 0x60⟩

/-- Packet slots of a shim tile: 24 ports of four words. -/
def shimSlots : Region := ⟨slotBase, 24 * 0x10⟩

def masterOffset (port : Nat) : Nat :=
  masterBase + 4 * port

def slaveOffset (port : Nat) : Nat :=
  slaveBase + 4 * port

/-- Packet slot `slot` of slave port `port`. -/
def slotOffset (port slot : Nat) : Nat :=
  slotBase + 0x10 * port + 4 * slot

/-- Packet slot `slot` of slave port `port` in 32-bit arithmetic, checked from left to right. -/
def slotOffset? (port slot : Nat) : Except Fault Nat := do
  let ports ← checkedMul 32 0x10 port
  let table ← checkedAdd 32 slotBase ports
  let slots ← checkedMul 32 4 slot
  checkedAdd 32 table slots

/-! ## Shim mux -/

/-- Selects what drives the streams that leave a shim tile to the north. -/
def shimMux : Nat := 0x1F000

/-- Selects where the streams that enter a shim tile from the north go. -/
def shimDemux : Nat := 0x1F004

/-! ## Fields -/

namespace DescriptorAddress

def lockId : BitField := { high := 25, low := 22 }
def releaseEnable : BitField := .bit 21
def releaseValue : BitField := .bit 20
def releaseValueEnable : BitField := .bit 19
def acquireEnable : BitField := .bit 18
def acquireValue : BitField := .bit 17
def acquireValueEnable : BitField := .bit 16
def base : BitField := { high := 12, low := 0 }

end DescriptorAddress

namespace DescriptorControl

def valid : BitField := .bit 31
def abMode : BitField := .bit 30
def fifoMode : BitField := .bit 28
def packetEnable : BitField := .bit 27
def nextEnable : BitField := .bit 17
def nextDescriptor : BitField := { high := 16, low := 13 }
def length : BitField := { high := 12, low := 0 }

end DescriptorControl

namespace DescriptorPacket

def kind : BitField := { high := 14, low := 12 }
def id : BitField := { high := 4, low := 0 }

end DescriptorPacket

namespace Channel

def reset : BitField := .bit 1
def enable : BitField := .bit 0
def startDescriptor : BitField := { high := 4, low := 0 }

end Channel

namespace StreamPort

def enable : BitField := .bit 31
def packetEnable : BitField := .bit 30
def dropHeader : BitField := .bit 7
def config : BitField := { high := 6, low := 0 }

end StreamPort

namespace PacketSlot

def id : BitField := { high := 28, low := 24 }
def mask : BitField := { high := 20, low := 16 }
def enable : BitField := .bit 8
def msel : BitField := { high := 5, low := 4 }
def arbiter : BitField := { high := 2, low := 0 }

end PacketSlot
end RegisterMap
end ArrayImage
