import ArrayImage.Description
import ArrayImage.RegisterMap

/-!
# ArrayImage.Dma.Descriptor

Buffer descriptors and their words.

A descriptor has one or two buffers, at most one lock and at most one packet tag. `Descriptor.words`
lists its seven registers with their places inside the descriptor. Only the first buffer can have
a lock; the second one has its address only.
-/

namespace ArrayImage

open RegisterMap

/-- The index that stands for no descriptor. -/
def noDescriptor : Nat := 255

/-- The lock value that matches every value. -/
def anyLockValue : UInt32 := 255

/-- One buffer of a descriptor: `length` elements from `address` on. -/
structure BufferSpan where
  address : Nat
  length : UInt32
  elementBytes : UInt32

/-- The lock of a descriptor and what is done with it. -/
structure LockGuard where
  id : UInt8
  acquire : Option UInt32
  release : Option UInt32

/-- All that a descriptor says. -/
structure Descriptor where
  a : Option BufferSpan := none
  b : Option BufferSpan := none
  lock : Option LockGuard := none
  packet : Option PacketTag := none
  abMode : Bool := false
  fifoMode : Bool := false

/-- The bits that compare and set a lock value; an action that is not used has value 0. A value
that matches everything is not compared. -/
def lockValueBits (enable value : BitField) (action : Option UInt32) : Word :=
  let v := action.getD 0
  if v = anyLockValue then 0 else enable.flag true ||| value.set (.ofNat v.toNat)

def LockGuard.bits (g : LockGuard) : Word :=
  DescriptorAddress.lockId.set (.ofByte g.id) |||
    DescriptorAddress.releaseEnable.flag g.release.isSome |||
    DescriptorAddress.acquireEnable.flag g.acquire.isSome |||
    lockValueBits DescriptorAddress.releaseValueEnable DescriptorAddress.releaseValue g.release |||
    lockValueBits DescriptorAddress.acquireValueEnable DescriptorAddress.acquireValue g.acquire

/-- The bits of a buffer in an address word: its address in words. -/
def baseBits : Option BufferSpan → Word
  | none => 0
  | some span => DescriptorAddress.base.set (.ofNat (span.address / 4))

namespace Descriptor

/-- The length of the first buffer, or of the second one when there is no first. -/
def length (d : Descriptor) : UInt32 :=
  match d.a, d.b with
  | some a, _ => a.length
  | none, some b => b.length
  | none, none => 0

def addressWordA (d : Descriptor) : Word :=
  match d.a, d.lock with
  | some _, some lock => lock.bits ||| baseBits d.a
  | _, _ => baseBits d.a

def addressWordB (d : Descriptor) : Word :=
  baseBits d.b

def packetWord (d : Descriptor) : Word :=
  match d.packet with
  | none => 0
  | some tag =>
    DescriptorPacket.id.set (.ofByte tag.id) ||| DescriptorPacket.kind.set (.ofByte tag.kind)

/-- The bits that link a descriptor to the next one. -/
def nextBits : Option Nat → Word
  | none => 0
  | some slot =>
    if slot = noDescriptor then 0
    else DescriptorControl.nextEnable.flag true |||
      DescriptorControl.nextDescriptor.set (.ofNat slot)

/-- The control word. The length field holds one less than the length. -/
def controlWord (d : Descriptor) (next : Option Nat) : Word :=
  DescriptorControl.length.set (.ofNat (d.length - 1).toNat) |||
    DescriptorControl.fifoMode.flag d.fifoMode |||
    DescriptorControl.abMode.flag d.abMode |||
    nextBits next |||
    DescriptorControl.packetEnable.flag d.packet.isSome |||
    DescriptorControl.valid.flag true

/-- The registers of a descriptor: their places and words. The two-dimensional pattern and the
interleaving keep the values that they have for plain transfers. -/
def words (d : Descriptor) (next : Option Nat) : List (Nat × Word) :=
  [(0x00, d.addressWordA), (0x04, d.addressWordB), (0x08, 0x00FF0001), (0x0C, 0xFFFF0100),
    (0x10, d.packetWord), (0x14, 0), (0x18, d.controlWord next)]

end Descriptor
end ArrayImage
