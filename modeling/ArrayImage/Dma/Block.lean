import ArrayImage.Dma.Descriptor
import ArrayImage.Script

/-!
# ArrayImage.Dma.Block

From a block of a DMA program to its descriptor.

A block without transfers has no descriptor, and neither has one with a buffer whose address is
not known. Of two transfers in one slot the later one counts, and so does the later of two uses of
a lock.
-/

namespace ArrayImage

/-- The address of the first byte of a buffer, if it is known. -/
abbrev AddressSource := String → Option UInt64

/-- What the transfers of a block come to. -/
inductive Gathering where
  /-- A buffer has no known address. -/
  | unresolved (buffer : String)
  /-- An address leaves the address space. -/
  | fault (f : Fault)
  /-- The buffers of the two slots. -/
  | spans (a b : Option BufferSpan)

/-- The bytes of one element of a buffer; a buffer that is not declared has 32-bit elements. -/
def Device.elementBytes (d : Device) (buffer : String) : UInt32 :=
  match d.buffer? buffer with
  | some b => b.elementBits / 8
  | none => 4

/-- Gather transfers, from first to last, onto what the slots held before. -/
def Device.gather (d : Device) (addresses : AddressSource) :
    List Transfer → Option BufferSpan → Option BufferSpan → Gathering
  | [], a, b => .spans a b
  | t :: rest, a, b =>
    match addresses t.buffer with
    | none => .unresolved t.buffer
    | some base =>
      match checkedAdd 64 base.toNat t.offset.toNat with
      | .error f => .fault f
      | .ok address =>
        let span : BufferSpan := ⟨address, t.length, d.elementBytes t.buffer⟩
        match t.slot with
        | .a => d.gather addresses rest (some span) b
        | .b => d.gather addresses rest a (some span)

/-- The lock of a block after some more uses, or the name of the first unknown lock. -/
def Device.lockGuard (d : Device) : List LockUse → Option LockGuard → Except String (Option LockGuard)
  | [], lockSoFar => .ok lockSoFar
  | u :: rest, lockSoFar =>
    match d.lock? u.lock with
    | none => .error u.lock
    | some lock =>
      let before := lockSoFar.getD ⟨lock.id, none, none⟩
      match u.action with
      | .acquire => d.lockGuard rest (some ⟨lock.id, some u.value, before.release⟩)
      | .release => d.lockGuard rest (some ⟨lock.id, before.acquire, some u.value⟩)

/-- Two buffers in one descriptor must have the same length and element size. -/
def pairProblems (label : String) : Option BufferSpan → Option BufferSpan → List Problem
  | some a, some b =>
    (if a.length ≠ b.length then [.lengthMismatch label a.length b.length] else []) ++
      if a.elementBytes ≠ b.elementBytes then
        [.elementMismatch label a.elementBytes b.elementBytes]
      else []
  | _, _ => []

/-- The lock of a block and the problems with it. After an unknown lock there is none. -/
def Device.blockLock (d : Device) (block : DmaBlock) (b : Option BufferSpan) :
    Option LockGuard × List Problem :=
  if block.locks.isEmpty then (none, [])
  else
    let onB := if b.isSome then [Problem.lockOnB block.label] else []
    match d.lockGuard block.locks none with
    | .error name => (none, .unknownLock block.label name :: onB)
    | .ok lock => (lock, onB)

/-- The descriptor of a block, if it has one, and the steps that gathering it takes. -/
def DmaBlock.describe (d : Device) (addresses : AddressSource) (tile : TileId) (block : DmaBlock) :
    Option Descriptor × Script :=
  if block.transfers.isEmpty then (none, [])
  else
    match d.gather addresses block.transfers none none with
    | .unresolved buffer => (none, [.report tile (.unresolvedBuffer block.label buffer)])
    | .fault f => (none, [.fault f])
    | .spans a b =>
      let (lock, lockProblems) := d.blockLock block b
      (some { a, b, lock, packet := block.packet, abMode := a.isSome && b.isSome },
        (pairProblems block.label a b ++ lockProblems).map (Step.report tile))

end ArrayImage
