import ArrayImage.Dma.Chain
import ArrayImage.Proofs.BitField
import ArrayImage.Proofs.Lists
import ArrayImage.Proofs.Script
import ArrayImage.Proofs.Validity

/-!
# ArrayImage.Proofs.Slots

Which blocks of a DMA program have descriptors, and at which places.

`MemoryDma.resolved` is the list of blocks that have transfers and know all their buffers. On a
run that does not fault these are the blocks with a descriptor (`described_map_fst`), and in a
valid design the slot of a label is the place of its block in that list
(`slotOf_resolved`), whatever blocks are left out before it and whichever way links point.
-/

namespace ArrayImage

open RegisterMap

/-! ## Resolved blocks -/

/-- There are transfers, and all their buffers have addresses. -/
def DmaBlock.isResolved (addresses : AddressSource) (b : DmaBlock) : Bool :=
  !b.transfers.isEmpty && b.transfers.all fun x => (addresses x.buffer).isSome

/-- The blocks that can have a descriptor, in their order. -/
def MemoryDma.resolved (addresses : AddressSource) (m : MemoryDma) : List DmaBlock :=
  m.blocks.filter fun b => b.isResolved addresses

def MemoryDma.indexOf? (addresses : AddressSource) (m : MemoryDma) (label : String) : Option Nat :=
  ((m.resolved addresses).map DmaBlock.label).idxOf? label

section Gather

variable {d : Device} {addresses : AddressSource} {ts : List Transfer}
  {a b a' b' : Option BufferSpan}

theorem Device.resolved_of_gather_spans (h : d.gather addresses ts a b = .spans a' b') :
    ∀ x ∈ ts, (addresses x.buffer).isSome := by
  induction ts generalizing a b with
  | nil => simp
  | cons t ts ih =>
    unfold gather at h
    cases ht : addresses t.buffer with
    | none => simp [ht] at h
    | some base =>
      rw [List.forall_mem_cons]
      refine ⟨by rw [ht]; rfl, ?_⟩
      simp only [ht] at h
      cases hadd : checkedAdd 64 base.toNat t.offset.toNat with
      | error f => simp [hadd] at h
      | ok address =>
        simp only [hadd] at h
        cases hslot : t.slot with
        | a =>
          simp only [hslot] at h
          exact ih h
        | b =>
          simp only [hslot] at h
          exact ih h

theorem Device.exists_of_gather_unresolved {buffer : String}
    (h : d.gather addresses ts a b = .unresolved buffer) :
    ∃ x ∈ ts, addresses x.buffer = none := by
  induction ts generalizing a b with
  | nil => cases h
  | cons t ts ih =>
    unfold gather at h
    cases ht : addresses t.buffer with
    | none => exact ⟨t, List.mem_cons_self, ht⟩
    | some base =>
      simp only [ht] at h
      have hrest : ∃ x ∈ ts, addresses x.buffer = none := by
        cases hadd : checkedAdd 64 base.toNat t.offset.toNat with
        | error f => simp [hadd] at h
        | ok address =>
          simp only [hadd] at h
          cases hslot : t.slot with
          | a =>
            simp only [hslot] at h
            exact ih h
          | b =>
            simp only [hslot] at h
            exact ih h
      obtain ⟨x, hx, hnone⟩ := hrest
      exact ⟨x, List.mem_cons_of_mem _ hx, hnone⟩

end Gather

theorem DmaBlock.isSome_describe {d : Device} {addresses : AddressSource} {t : TileId}
    {b : DmaBlock} (hs : Script.Completes (b.describe d addresses t).2) :
    (b.describe d addresses t).1.isSome = b.isResolved addresses := by
  unfold describe at hs ⊢
  unfold isResolved
  cases he : b.transfers.isEmpty with
  | true => rfl
  | false =>
    simp only [he, Bool.false_eq_true, if_false, Bool.not_false, Bool.true_and] at hs ⊢
    cases hg : d.gather addresses b.transfers none none with
    | unresolved buffer =>
      obtain ⟨x, hx, hnone⟩ := Device.exists_of_gather_unresolved hg
      symm
      rw [Option.isSome_none, List.all_eq_false]
      exact ⟨x, hx, by simp [hnone]⟩
    | fault f =>
      simp only [hg] at hs
      exact absurd hs (Script.not_completes_fault f)
    | spans a' b' =>
      symm
      rw [Option.isSome_some, List.all_eq_true]
      exact Device.resolved_of_gather_spans hg

section Described

variable {d : Device} {addresses : AddressSource} {t : TileId} {m : MemoryDma}

theorem MemoryDma.described_map_fst
    (hs : Script.Completes (m.blocks.flatMap fun b => (b.describe d addresses t).2)) :
    (m.described d addresses t).map Prod.fst = m.resolved addresses := by
  rw [described, map_fst_filterMap_pair, resolved]
  exact List.filter_congr fun b hb =>
    DmaBlock.isSome_describe (Script.completes_flatMap.mp hs b hb)

theorem MemoryDma.describe_of_mem {b : DmaBlock} {x : Descriptor}
    (h : (b, x) ∈ m.described d addresses t) : (b.describe d addresses t).1 = some x := by
  obtain ⟨b', -, hb⟩ := List.mem_filterMap.mp h
  cases hd : (b'.describe d addresses t).1 with
  | none =>
    rw [hd] at hb
    cases hb
  | some y =>
    rw [hd] at hb
    cases hb
    exact hd

end Described

/-! ## Slots -/

theorem lastIndex?_of_notMem {l : List String} {a : String} (h : a ∉ l) :
    lastIndex? a l = none := by
  induction l with
  | nil => rfl
  | cons x l ih =>
    rw [List.mem_cons, not_or] at h
    rw [lastIndex?, ih h.2]
    exact if_neg fun he => h.1 he.symm

theorem lastIndex?_eq_idxOf? {l : List String} (hl : l.Nodup) (a : String) :
    lastIndex? a l = l.idxOf? a := by
  induction l with
  | nil => rfl
  | cons x l ih =>
    obtain ⟨hx, hl⟩ := List.nodup_cons.mp hl
    rw [lastIndex?, List.idxOf?_cons]
    by_cases hxa : x = a
    · subst hxa
      rw [lastIndex?_of_notMem hx]
      simp
    · rw [ih hl]
      simp only [beq_iff_eq, hxa, if_false]
      cases l.idxOf? a <;> rfl

section Valid

variable {d : Device} {addresses : AddressSource} {m : MemoryDma}

theorem MemoryDma.resolved_labels_nodup (hm : m.Valid d) :
    ((m.resolved addresses).map DmaBlock.label).Nodup :=
  hm.labels_nodup.sublist (List.filter_sublist.map _)

theorem MemoryDma.resolved_length_le (hm : m.Valid d) : (m.resolved addresses).length ≤ 16 := by
  refine Nat.le_trans ?_ hm.descriptors_le
  rw [resolved, ← List.countP_eq_length_filter]
  refine List.countP_mono_left fun b _ hb => ?_
  rw [DmaBlock.isResolved, Bool.and_eq_true] at hb
  exact hb.1

theorem MemoryDma.indexOf?_eq_some_iff (hm : m.Valid d) {label : String} {i : Nat} :
    m.indexOf? addresses label = some i ↔
      ∃ b, (m.resolved addresses)[i]? = some b ∧ b.label = label := by
  rw [indexOf?, idxOf?_eq_some_iff_of_nodup (resolved_labels_nodup hm), List.getElem?_map,
    Option.map_eq_some_iff]

theorem MemoryDma.indexOf?_lt (hm : m.Valid d) {label : String} {i : Nat}
    (h : m.indexOf? addresses label = some i) : i < 16 := by
  obtain ⟨b, hb, -⟩ := (indexOf?_eq_some_iff hm).mp h
  exact Nat.lt_of_lt_of_le (List.getElem?_eq_some_iff.mp hb).1 (resolved_length_le hm)

/-- The slot of a label is the place of its block. -/
theorem MemoryDma.slotOf_resolved (hm : m.Valid d) (label : String) :
    slotOf ((m.resolved addresses).map DmaBlock.label) label =
      (m.indexOf? addresses label).getD noDescriptor := by
  rw [slotOf, lastIndex?_eq_idxOf? (resolved_labels_nodup hm), ← indexOf?]
  cases hi : m.indexOf? addresses label with
  | none => rfl
  | some i =>
    have := indexOf?_lt hm hi
    simp only [Option.getD_some, noDescriptor]
    omega

end Valid

/-! ## Links -/

/-- The place of the block that comes next, when it can have a descriptor. -/
def MemoryDma.link (addresses : AddressSource) (m : MemoryDma) (b : DmaBlock) : Option Nat :=
  b.next.bind (m.indexOf? addresses)

/-- A link to a block without a descriptor is written as no link. -/
theorem MemoryDma.words_link {d : Device} {addresses : AddressSource} {m : MemoryDma}
    (hm : m.Valid d) (b : DmaBlock) (x : Descriptor) :
    x.words (b.next.map (slotOf ((m.resolved addresses).map DmaBlock.label))) =
      x.words (m.link addresses b) := by
  have hbits :
      Descriptor.nextBits (b.next.map (slotOf ((m.resolved addresses).map DmaBlock.label))) =
        Descriptor.nextBits (m.link addresses b) := by
    unfold link
    cases b.next with
    | none => rfl
    | some label =>
      rw [Option.map_some, Option.bind_some, slotOf_resolved hm]
      cases m.indexOf? addresses label <;> rfl
  rw [Descriptor.words, Descriptor.words, Descriptor.controlWord, Descriptor.controlWord, hbits]

namespace Descriptor

open DescriptorControl

/-- Fields that only a link sets are read off the link. -/
theorem get_controlWord {f : BitField} (x : Descriptor) (link : Option Nat)
    (hf : DescriptorControl.length.high < f.low ∧ f.high < packetEnable.low) :
    f.get (x.controlWord link) = f.get (nextBits link) := by
  have hl := f.low_le_high
  obtain ⟨hlow, hhigh⟩ := hf
  simp only [DescriptorControl.length, packetEnable, BitField.bit] at hlow hhigh
  simp only [controlWord, BitField.flag, BitField.get_or]
  have hfifo : f.high < DescriptorControl.fifoMode.low := by
    simp only [DescriptorControl.fifoMode, BitField.bit]
    omega
  have hab : f.high < DescriptorControl.abMode.low := by
    simp only [DescriptorControl.abMode, BitField.bit]
    omega
  have hvalid : f.high < valid.low := by
    simp only [valid, BitField.bit]
    omega
  rw [BitField.get_set_of_disjoint (.inr hlow), BitField.get_set_of_disjoint (.inl hfifo),
    BitField.get_set_of_disjoint (.inl hab), BitField.get_set_of_disjoint (.inl hhigh),
    BitField.get_set_of_disjoint (.inl hvalid)]
  simp

theorem get_nextEnable_none (x : Descriptor) : nextEnable.get (x.controlWord none) = 0 := by
  rw [get_controlWord x none (by decide)]
  exact BitField.get_zero _

theorem nextBits_some {j : Nat} (hj : j < 16) :
    nextBits (some j) = nextEnable.flag true ||| nextDescriptor.set (.ofNat j) :=
  if_neg (by rw [noDescriptor]; omega)

theorem get_nextEnable_some (x : Descriptor) {j : Nat} (hj : j < 16) :
    nextEnable.get (x.controlWord (some j)) = 1 := by
  rw [get_controlWord x _ (by decide), nextBits_some hj, BitField.get_or,
    BitField.get_set_of_disjoint (g := nextDescriptor) (by decide)]
  decide

theorem get_nextDescriptor_some (x : Descriptor) {j : Nat} (hj : j < 16) :
    nextDescriptor.get (x.controlWord (some j)) = .ofNat j := by
  rw [get_controlWord x _ (by decide), nextBits_some hj, BitField.get_or, BitField.flag,
    BitField.get_set_of_disjoint (g := nextEnable) (by decide), BitField.get_set_self]
  have hcut : ∀ i < 16, (0 : Word) ||| .ofNat i &&& nextDescriptor.valueMask = .ofNat i := by
    decide +kernel
  exact hcut j hj

end Descriptor
end ArrayImage
