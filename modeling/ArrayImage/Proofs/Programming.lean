import ArrayImage.Proofs.Placement
import ArrayImage.Proofs.Slots

/-!
# ArrayImage.Proofs.Programming

What the DMA programs of a valid design leave in the descriptors and channels of each tile.

`Device.Programmed` is the whole statement: a descriptor holds the words of the block at its place
in the last program that has so many blocks, a channel is started on the block of the last start
for it, and every other register is as it was. It holds of every run that does not fault, and
follows from what one program leaves at one place (`MemoryDma.lastWord?_descriptor`,
`MemoryDma.lastWord?_channel`).
-/

namespace ArrayImage

open RegisterMap

/-! ## Places -/

/-- The places of the seven registers of each descriptor. -/
def IsDescriptorOffset (o : Nat) : Prop :=
  ∃ i < descriptorCount, ∃ k < 7, o = descriptorOffset i + 4 * k

/-- The places of the control registers and start queues of all channels. -/
def IsChannelOffset (o : Nat) : Prop :=
  ∃ direction : ChannelDirection, ∃ c < channelCount,
    o = direction.controlOffset c ∨ o = direction.queueOffset c

theorem controlOffset_eq (direction : ChannelDirection) (c : Nat) :
    direction.controlOffset c =
      match direction with
      | .s2mm => 0x1DE00 + 8 * c
      | .mm2s => 0x1DE10 + 8 * c := by
  cases direction <;> rfl

theorem queueOffset_eq (direction : ChannelDirection) (c : Nat) :
    direction.queueOffset c = direction.controlOffset c + 4 := rfl

theorem controlOffset_inj {x y : ChannelDirection} {c e : Nat} (hc : c < channelCount)
    (he : e < channelCount) : x.controlOffset c = y.controlOffset e ↔ x = y ∧ c = e := by
  rw [controlOffset_eq, controlOffset_eq]
  simp only [channelCount] at hc he
  cases x <;> cases y <;> simp <;> omega

theorem controlOffset_ne_queueOffset (x y : ChannelDirection) (c e : Nat) :
    x.controlOffset c ≠ y.queueOffset e := by
  rw [queueOffset_eq, controlOffset_eq, controlOffset_eq]
  cases x <;> cases y <;> simp only <;> omega

theorem IsChannelOffset.bounds {o : Nat} (h : IsChannelOffset o) :
    0x1DE00 ≤ o ∧ o < 0x1DE20 ∧ o % 4 = 0 := by
  obtain ⟨direction, c, hc, h⟩ := h
  rw [queueOffset_eq, controlOffset_eq] at h
  simp only [channelCount] at hc
  cases direction <;> simp only at h <;> omega

theorem IsDescriptorOffset.bounds {o : Nat} (h : IsDescriptorOffset o) :
    0x1D000 ≤ o ∧ o < 0x1D200 ∧ o % 4 = 0 := by
  obtain ⟨i, hi, k, hk, rfl⟩ := h
  simp only [descriptorOffset, descriptors, descriptorCount] at hi ⊢
  omega

theorem descriptorOffset_bounds {i o : Nat} (hi : i < descriptorCount) (ho : o < 0x20) :
    0x1D000 ≤ descriptorOffset i + o ∧ descriptorOffset i + o < 0x1D200 := by
  simp only [descriptorOffset, descriptors, descriptorCount] at hi ⊢
  omega

theorem descriptorOffset_add_inj {i j o p : Nat} (ho : o < 0x20) (hp : p < 0x20) :
    descriptorOffset i + o = descriptorOffset j + p ↔ i = j ∧ o = p := by
  simp only [descriptorOffset]
  omega

/-! ## What a program writes -/

def Write.IsChannel (w : Write) : Prop :=
  IsChannelOffset w.register.offset ∧ ∃ v, w.update = .put v

def Write.IsDescriptor (w : Write) : Prop :=
  IsDescriptorOffset w.register.offset ∧ ∃ v, w.update = .put v

theorem isChannel_idleSteps (t : TileId) : Script.AllWrites Write.IsChannel (idleSteps t) := by
  simp only [idleSteps, Script.allWrites_flatMap, Script.allWrites_cons, Script.allWrites_nil,
    and_true]
  intro direction _ c hc
  have hc := List.mem_range.mp hc
  constructor
  · intro w hw
    obtain ⟨-, ho, hu⟩ := Step.eq_of_put_eq_write hw
    exact ⟨⟨direction, c, hc, .inl ho⟩, _, hu⟩
  · intro w hw
    obtain ⟨-, ho, hu⟩ := Step.eq_of_put_eq_write hw
    exact ⟨⟨direction, c, hc, .inr ho⟩, _, hu⟩

theorem ChannelStart.isChannel_steps (t : TileId) (labels : List String) (s : ChannelStart) :
    Script.AllWrites Write.IsChannel (s.steps t labels) := by
  simp only [steps]
  split
  · simp
  · split
    · rename_i hc
      simp only [Script.allWrites_cons, Script.allWrites_nil, and_true]
      constructor
      · intro w hw
        obtain ⟨-, ho, hu⟩ := Step.eq_of_put_eq_write hw
        exact ⟨⟨s.direction, _, hc, .inr ho⟩, _, hu⟩
      · intro w hw
        obtain ⟨-, ho, hu⟩ := Step.eq_of_put_eq_write hw
        exact ⟨⟨s.direction, _, hc, .inl ho⟩, _, hu⟩
    · simp

theorem Descriptor.offset_of_mem_words {x : Descriptor} {next : Option Nat} {p : Nat × Word}
    (h : p ∈ x.words next) : ∃ k < 7, p.1 = 4 * k := by
  simp only [words, List.mem_cons, List.not_mem_nil, or_false] at h
  rcases h with rfl | rfl | rfl | rfl | rfl | rfl | rfl
  · exact ⟨0, by decide, rfl⟩
  · exact ⟨1, by decide, rfl⟩
  · exact ⟨2, by decide, rfl⟩
  · exact ⟨3, by decide, rfl⟩
  · exact ⟨4, by decide, rfl⟩
  · exact ⟨5, by decide, rfl⟩
  · exact ⟨6, by decide, rfl⟩

theorem isDescriptor_descriptorSteps (t : TileId) (labels : List String) (b : DmaBlock)
    (x : Descriptor) : Script.AllWrites Write.IsDescriptor (descriptorSteps t labels b x) := by
  simp only [descriptorSteps]
  split
  · rename_i hslot
    rw [Script.allWrites_append]
    refine ⟨fun w hw => ?_, by simp⟩
    obtain ⟨p, hp, hw⟩ := List.mem_map.mp hw
    obtain ⟨-, ho, hu⟩ := Step.eq_of_put_eq_write hw
    obtain ⟨k, hk, he⟩ := Descriptor.offset_of_mem_words hp
    exact ⟨⟨_, hslot, k, hk, he ▸ ho⟩, _, hu⟩
  · simp

theorem DmaBlock.allWrites_describe {P : Write → Prop} (d : Device) (addresses : AddressSource)
    (t : TileId) (b : DmaBlock) : Script.AllWrites P (b.describe d addresses t).2 := by
  unfold describe
  split
  · simp
  · split
    · simp
    · simp
    · intro w hw
      obtain ⟨p, -, hp⟩ := List.mem_map.mp hw
      cases hp

theorem MemoryDma.isChannel_or_isDescriptor_steps (d : Device) (addresses : AddressSource)
    (t : TileId) (m : MemoryDma) :
    Script.AllWrites (fun w => w.IsChannel ∨ w.IsDescriptor) (m.steps d addresses t) := by
  simp only [steps]
  split
  · simp
  · simp only [Script.allWrites_append, Script.allWrites_flatMap]
    exact ⟨⟨⟨fun w hw => .inl (isChannel_idleSteps t w hw),
      fun b _ => b.allWrites_describe d addresses t⟩,
      fun _ _ w hw => .inr (isDescriptor_descriptorSteps _ _ _ _ w hw)⟩,
      fun s _ w hw => .inl (s.isChannel_steps _ _ w hw)⟩

/-! ## What a program leaves in a channel -/

/-- Every channel once, with the words of a channel that is off. -/
theorem idleSteps_eq (t : TileId) : idleSteps t =
    [(0x00, 0), (0x04, 0), (0x08, 0), (0x0C, 0), (0x10, 0), (0x14, 0), (0x18, 0), (0x1C, 0)].map
      fun p : Nat × Word => Step.put t (0x1DE00 + p.1) (.put p.2) := by
  have hoff : channelWord false = 0 := by decide
  simp only [idleSteps, hoff]
  rfl

theorem lastWord?_idleSteps {t : TileId} (hs : Script.Completes (idleSteps t)) {o : Nat}
    (ho : IsChannelOffset o) : (idleSteps t).lastWord? (t.address o) = some 0 := by
  obtain ⟨hle, hlt, h4⟩ := ho.bounds
  obtain ⟨q, rfl⟩ : ∃ q, o = 0x1DE00 + q := ⟨o - 0x1DE00, by omega⟩
  rw [idleSteps_eq] at hs ⊢
  rw [Script.lastWord?_map_put hs (by decide) (by rw [windowSize_eq]; omega)]
  have hq : q = 0 ∨ q = 4 ∨ q = 8 ∨ q = 12 ∨ q = 16 ∨ q = 20 ∨ q = 24 ∨ q = 28 := by omega
  rcases hq with rfl | rfl | rfl | rfl | rfl | rfl | rfl | rfl <;> rfl

/-- The place of the block on which a start puts a channel, when it is for this channel and the
block can have a descriptor. -/
def ChannelStart.target? (addresses : AddressSource) (m : MemoryDma) (direction : ChannelDirection)
    (channel : Nat) (s : ChannelStart) : Option Nat :=
  if s.direction = direction ∧ s.channel.toNat = channel then m.indexOf? addresses s.block else none

/-- The block on which a channel is started: the one of the last start that has one. -/
def MemoryDma.startedOn? (addresses : AddressSource) (m : MemoryDma)
    (direction : ChannelDirection) (channel : Nat) : Option Nat :=
  (m.starts.filterMap (ChannelStart.target? addresses m direction channel)).getLast?

section Start

variable {d : Device} {addresses : AddressSource} {m : MemoryDma} {t : TileId} {s : ChannelStart}
  {direction : ChannelDirection} {channel : Nat}

theorem IsChannelOffset.lt_windowSize {o : Nat} (h : IsChannelOffset o) : o < windowSize := by
  have := h.bounds
  rw [windowSize_eq]
  omega

theorem ChannelStart.channel_lt (hm : m.Valid d) (hs : s ∈ m.starts) :
    s.channel.toNat < channelCount :=
  Nat.lt_succ_of_le (UInt8.le_iff_toNat_le.mp (hm.channel_le s hs))

/-- What a start does: nothing, when its block has no descriptor. -/
theorem ChannelStart.steps_eq (hm : m.Valid d) (hs : s ∈ m.starts) :
    s.steps t ((m.resolved addresses).map DmaBlock.label) =
      match m.indexOf? addresses s.block with
      | none => [.remark t (.startLeftOut s.block)]
      | some i => [Step.put t (s.direction.queueOffset s.channel.toNat)
            (.put (Channel.startDescriptor.set (.ofNat i))),
          Step.put t (s.direction.controlOffset s.channel.toNat) (.put (channelWord true))] := by
  have hc := channel_lt hm hs
  simp only [steps, MemoryDma.slotOf_resolved hm]
  cases hi : m.indexOf? addresses s.block with
  | none => rw [if_pos (Option.getD_none)]
  | some i =>
    have := MemoryDma.indexOf?_lt hm hi
    rw [Option.getD_some, if_neg (by rw [noDescriptor]; omega), if_pos hc]

theorem startDescriptor_set : ∀ i < 16, Channel.startDescriptor.set (.ofNat i) = .ofNat i := by
  decide +kernel

theorem channelWord_true : channelWord true = 1 := by
  decide

theorem ChannelStart.lastWord?_steps (hm : m.Valid d) (hs : s ∈ m.starts)
    (hc : Script.Completes (s.steps t ((m.resolved addresses).map DmaBlock.label))) {o : Nat}
    (ho : o < windowSize) :
    Script.lastWord? (s.steps t ((m.resolved addresses).map DmaBlock.label)) (t.address o) =
      (m.indexOf? addresses s.block).bind fun i =>
        if s.direction.controlOffset s.channel.toNat = o then some 1
        else if s.direction.queueOffset s.channel.toNat = o then some (.ofNat i) else none := by
  rw [steps_eq hm hs] at hc ⊢
  cases hi : m.indexOf? addresses s.block with
  | none => simp
  | some i =>
    simp only [hi, Script.completes_cons, Script.completes_nil, and_true] at hc ⊢
    rw [Script.lastWord?_cons, Script.lastWord?_cons, Script.lastWord?_nil, Option.none_or,
      Step.wordAt?_put_address hc.1 ho, Step.wordAt?_put_address hc.2 ho, channelWord_true,
      startDescriptor_set i (MemoryDma.indexOf?_lt hm hi), Option.bind_some]
    split <;> rfl

theorem ChannelStart.lastWord?_control (hm : m.Valid d) (hs : s ∈ m.starts)
    (hc : Script.Completes (s.steps t ((m.resolved addresses).map DmaBlock.label)))
    (hch : channel < channelCount) :
    Script.lastWord? (s.steps t ((m.resolved addresses).map DmaBlock.label))
        (t.address (direction.controlOffset channel)) =
      (s.target? addresses m direction channel).map fun _ => 1 := by
  have hw : IsChannelOffset (direction.controlOffset channel) := ⟨direction, channel, hch, .inl rfl⟩
  have hinj := controlOffset_inj (x := s.direction) (y := direction) (channel_lt hm hs) hch
  rw [lastWord?_steps hm hs hc hw.lt_windowSize]
  unfold target?
  simp only [hinj, (controlOffset_ne_queueOffset _ _ _ _).symm, if_false]
  cases m.indexOf? addresses s.block <;> split <;> rfl

theorem ChannelStart.lastWord?_queue (hm : m.Valid d) (hs : s ∈ m.starts)
    (hc : Script.Completes (s.steps t ((m.resolved addresses).map DmaBlock.label)))
    (hch : channel < channelCount) :
    Script.lastWord? (s.steps t ((m.resolved addresses).map DmaBlock.label))
        (t.address (direction.queueOffset channel)) =
      (s.target? addresses m direction channel).map .ofNat := by
  have hw : IsChannelOffset (direction.queueOffset channel) := ⟨direction, channel, hch, .inr rfl⟩
  have hinj : s.direction.queueOffset s.channel.toNat = direction.queueOffset channel ↔
      s.direction = direction ∧ s.channel.toNat = channel := by
    rw [queueOffset_eq, queueOffset_eq, Nat.add_right_cancel_iff,
      controlOffset_inj (channel_lt hm hs) hch]
  rw [lastWord?_steps hm hs hc hw.lt_windowSize]
  unfold target?
  simp only [hinj, controlOffset_ne_queueOffset, if_false]
  cases m.indexOf? addresses s.block <;> split <;> rfl

end Start

/-! ## What a program leaves on its tile -/

/-- The word that a program has for a register of descriptor `i`: the one of its block number
`i`. -/
def MemoryDma.descriptorWord? (d : Device) (addresses : AddressSource) (t : TileId) (i o : Nat)
    (m : MemoryDma) : Option Word :=
  (m.resolved addresses)[i]?.bind fun b =>
    (b.describe d addresses t).1.bind fun x => (x.words (m.link addresses b)).lookup o

namespace MemoryDma

variable {d : Device} {addresses : AddressSource} {m : MemoryDma} {t : TileId}

def describeSteps (d : Device) (addresses : AddressSource) (t : TileId) (m : MemoryDma) : Script :=
  m.blocks.flatMap fun b => (b.describe d addresses t).2

def tableSteps (d : Device) (addresses : AddressSource) (t : TileId) (m : MemoryDma) : Script :=
  (m.described d addresses t).flatMap fun p =>
    descriptorSteps t ((m.resolved addresses).map DmaBlock.label) p.1 p.2

def startSteps (addresses : AddressSource) (t : TileId) (m : MemoryDma) : Script :=
  m.starts.flatMap (ChannelStart.steps t ((m.resolved addresses).map DmaBlock.label))

theorem isDescriptor_tableSteps (d : Device) (addresses : AddressSource) (t : TileId)
    (m : MemoryDma) : Script.AllWrites Write.IsDescriptor (m.tableSteps d addresses t) :=
  Script.allWrites_flatMap.mpr fun p _ => isDescriptor_descriptorSteps t _ p.1 p.2

theorem isChannel_startSteps (addresses : AddressSource) (t : TileId) (m : MemoryDma) :
    Script.AllWrites Write.IsChannel (m.startSteps addresses t) :=
  Script.allWrites_flatMap.mpr fun s _ => s.isChannel_steps t _

theorem lastWord?_describeSteps {o : Nat} (ho : o < windowSize) :
    (m.describeSteps d addresses t).lastWord? (t.address o) = none :=
  Script.lastWord?_eq_none_of_allWrites (P := fun _ => False)
    (Script.allWrites_flatMap.mpr fun b _ => b.allWrites_describe d addresses t)
    (fun _ h => h.elim) ho

theorem completes_describeSteps (ht : t.isShim = false)
    (hs : Script.Completes (m.steps d addresses t)) :
    (m.describeSteps d addresses t).Completes := by
  simp only [steps, ht, Bool.false_eq_true, if_false, Script.completes_append] at hs
  exact hs.1.1.2

theorem steps_eq (ht : t.isShim = false) (hs : Script.Completes (m.steps d addresses t)) :
    m.steps d addresses t =
      idleSteps t ++ m.describeSteps d addresses t ++ m.tableSteps d addresses t ++
        m.startSteps addresses t := by
  have hlabels : (m.described d addresses t).map (fun p => p.1.label) =
      (m.resolved addresses).map DmaBlock.label := by
    rw [← described_map_fst (completes_describeSteps ht hs), List.map_map]
    rfl
  simp only [steps, ht, Bool.false_eq_true, if_false]
  rw [hlabels]
  rfl

/-! ### Channels -/

theorem lastWord?_startSteps (hm : m.Valid d) (hs : (m.startSteps addresses t).Completes)
    (direction : ChannelDirection) {channel : Nat} (hch : channel < channelCount) :
    (m.startSteps addresses t).lastWord? (t.address (direction.controlOffset channel)) =
        (m.startedOn? addresses direction channel).map (fun _ => 1) ∧
      (m.startSteps addresses t).lastWord? (t.address (direction.queueOffset channel)) =
        (m.startedOn? addresses direction channel).map .ofNat := by
  have hc := Script.completes_flatMap.mp hs
  rw [startSteps,
    Script.lastWord?_flatMap fun s hm' => ChannelStart.lastWord?_control hm hm' (hc s hm') hch,
    Script.lastWord?_flatMap fun s hm' => ChannelStart.lastWord?_queue hm hm' (hc s hm') hch,
    startedOn?, ← List.getLast?_map, ← List.getLast?_map, List.map_filterMap, List.map_filterMap]
  exact ⟨rfl, rfl⟩

/-- What a program leaves in a channel: it is off, unless it is started. -/
theorem lastWord?_channel (hm : m.Valid d) (ht : t.isShim = false)
    (hs : Script.Completes (m.steps d addresses t)) (direction : ChannelDirection) {channel : Nat}
    (hch : channel < channelCount) :
    Script.lastWord? (m.steps d addresses t) (t.address (direction.controlOffset channel)) =
        some (if (m.startedOn? addresses direction channel).isSome then 1 else 0) ∧
      Script.lastWord? (m.steps d addresses t) (t.address (direction.queueOffset channel)) =
        some (.ofNat ((m.startedOn? addresses direction channel).getD 0)) := by
  have heq := steps_eq ht hs
  rw [heq] at hs ⊢
  simp only [Script.completes_append] at hs
  obtain ⟨⟨⟨hidle, -⟩, -⟩, hstarts⟩ := hs
  -- before the starts the channel is off, and neither blocks nor descriptors change that
  have hoff : ∀ o, IsChannelOffset o → Script.lastWord? (idleSteps t ++
      m.describeSteps d addresses t ++ m.tableSteps d addresses t) (t.address o) = some 0 := by
    intro o ho
    have htable : (m.tableSteps d addresses t).lastWord? (t.address o) = none := by
      refine Script.lastWord?_eq_none_of_allWrites (isDescriptor_tableSteps d addresses t m)
        (fun w hw he => ?_) ho.lt_windowSize
      have hlo := ho.bounds
      have hhi := hw.1.bounds
      omega
    rw [Script.lastWord?_append, Script.lastWord?_append, htable,
      lastWord?_describeSteps ho.lt_windowSize, lastWord?_idleSteps hidle ho]
    rfl
  obtain ⟨hcontrol, hqueue⟩ := lastWord?_startSteps hm hstarts direction hch
  rw [Script.lastWord?_append, hcontrol, hoff _ ⟨direction, channel, hch, .inl rfl⟩,
    Script.lastWord?_append, hqueue, hoff _ ⟨direction, channel, hch, .inr rfl⟩]
  cases m.startedOn? addresses direction channel <;> exact ⟨rfl, rfl⟩

/-! ### Descriptors -/

theorem descriptorOffset_lt_windowSize {i o : Nat} (hi : i < descriptorCount) (ho : o < 0x20) :
    descriptorOffset i + o < windowSize := by
  have := descriptorOffset_bounds hi ho
  rw [windowSize_eq]
  omega

theorem lastWord?_descriptorSteps {labels : List String} {b : DmaBlock} {x : Descriptor} {i o : Nat}
    (hs : Script.Completes (descriptorSteps t labels b x)) (hi : i < descriptorCount)
    (ho : o < 0x20) :
    Script.lastWord? (descriptorSteps t labels b x) (t.address (descriptorOffset i + o)) =
      if slotOf labels b.label = i then (x.words (b.next.map (slotOf labels))).lookup o
      else none := by
  have hwin := descriptorOffset_lt_windowSize hi ho
  by_cases he : slotOf labels b.label = i
  · subst he
    rw [if_pos rfl]
    simp only [descriptorSteps, if_pos hi, Script.completes_append] at hs ⊢
    rw [Script.lastWord?_append, Script.lastWord?_map_put hs.1 (by simp [Descriptor.words]) hwin]
    rfl
  · rw [if_neg he]
    refine Script.lastWord?_eq_none fun y hy => ?_
    simp only [descriptorSteps] at hy
    split at hy
    · rcases List.mem_append.mp hy with hy | hy
      · obtain ⟨p, hp, rfl⟩ := List.mem_map.mp hy
        obtain ⟨k, hk, hpk⟩ := Descriptor.offset_of_mem_words hp
        refine Step.wordAt?_put_of_ne _ (fun h => he ?_) hwin
        exact ((descriptorOffset_add_inj (by omega) ho).mp h).1
      · rw [List.mem_singleton] at hy
        subst hy
        rfl
    · rw [List.mem_singleton] at hy
      subst hy
      rfl

theorem slotOf_described (hm : m.Valid d)
    (hs : (m.describeSteps d addresses t).Completes) {p : DmaBlock × Descriptor} {j : Nat}
    (h : (m.described d addresses t)[j]? = some p) :
    (m.resolved addresses)[j]? = some p.1 ∧ (p.1.describe d addresses t).1 = some p.2 ∧
      slotOf ((m.resolved addresses).map DmaBlock.label) p.1.label = j := by
  have hres : (m.resolved addresses)[j]? = some p.1 := by
    rw [← described_map_fst hs, List.getElem?_map, h]
    rfl
  refine ⟨hres, describe_of_mem (List.mem_of_getElem? h), ?_⟩
  rw [slotOf_resolved hm, (indexOf?_eq_some_iff hm).mpr ⟨p.1, hres, rfl⟩, Option.getD_some]

theorem lastWord?_tableSteps (hm : m.Valid d) (hdesc : (m.describeSteps d addresses t).Completes)
    (hs : (m.tableSteps d addresses t).Completes) {i o : Nat} (hi : i < descriptorCount)
    (ho : o < 0x20) :
    (m.tableSteps d addresses t).lastWord? (t.address (descriptorOffset i + o)) =
      m.descriptorWord? d addresses t i o := by
  have hzip : m.tableSteps d addresses t = (m.described d addresses t).zipIdx.flatMap fun y =>
      descriptorSteps t ((m.resolved addresses).map DmaBlock.label) y.1.1 y.1.2 := by
    rw [tableSteps, ← List.zipIdx_map_fst 0 (m.described d addresses t), List.flatMap_map,
      List.zipIdx_map_fst]
  have hc := Script.completes_flatMap.mp (hzip ▸ hs)
  rw [hzip, Script.lastWord?_flatMap (g := fun y => if y.2 = 0 + i then
    (y.1.2.words (m.link addresses y.1.1)).lookup o else none)]
  · rw [getLast?_filterMap_zipIdx (fun p : DmaBlock × Descriptor =>
      (p.2.words (m.link addresses p.1)).lookup o), descriptorWord?]
    cases hp : (m.described d addresses t)[i]? with
    | none =>
      have hnone : (m.resolved addresses)[i]? = none := by
        rw [← described_map_fst hdesc, List.getElem?_map, hp]
        rfl
      rw [hnone]
      rfl
    | some p =>
      obtain ⟨hres, hdescribe, -⟩ := slotOf_described hm hdesc hp
      rw [hres, Option.bind_some, Option.bind_some, hdescribe, Option.bind_some]
  · rintro ⟨p, j⟩ hy
    obtain ⟨-, -, hslot⟩ := slotOf_described hm hdesc (List.mem_zipIdx_iff_getElem?.mp hy)
    rw [lastWord?_descriptorSteps (hc _ hy) hi ho, words_link hm, hslot, Nat.zero_add]

/-- A descriptor is written by the blocks alone. -/
theorem lastWord?_eq_tableSteps (ht : t.isShim = false)
    (hs : Script.Completes (m.steps d addresses t)) {i o : Nat} (hi : i < descriptorCount)
    (ho : o < 0x20) :
    Script.lastWord? (m.steps d addresses t) (t.address (descriptorOffset i + o)) =
      (m.tableSteps d addresses t).lastWord? (t.address (descriptorOffset i + o)) := by
  have hwin := descriptorOffset_lt_windowSize hi ho
  have hchannel : ∀ w : Write, w.IsChannel → w.register.offset ≠ descriptorOffset i + o := by
    intro w hw he
    have hlo := hw.1.bounds
    have hhi := descriptorOffset_bounds hi ho
    omega
  rw [steps_eq ht hs, Script.lastWord?_append, Script.lastWord?_append, Script.lastWord?_append,
    Script.lastWord?_eq_none_of_allWrites (isChannel_idleSteps t) hchannel hwin,
    Script.lastWord?_eq_none_of_allWrites (isChannel_startSteps addresses t m) hchannel hwin,
    lastWord?_describeSteps hwin, Option.none_or, Option.none_or, Option.or_none]

/-- What a program leaves in a descriptor. -/
theorem lastWord?_descriptor (hm : m.Valid d) (ht : t.isShim = false)
    (hs : Script.Completes (m.steps d addresses t)) {i o : Nat} (hi : i < descriptorCount)
    (ho : o < 0x20) :
    Script.lastWord? (m.steps d addresses t) (t.address (descriptorOffset i + o)) =
      m.descriptorWord? d addresses t i o := by
  have hdesc := completes_describeSteps ht hs
  rw [lastWord?_eq_tableSteps ht hs hi ho]
  rw [steps_eq ht hs] at hs
  simp only [Script.completes_append] at hs
  exact lastWord?_tableSteps hm hdesc hs.1.2 hi ho

end MemoryDma

/-! ## Words of blocks -/

theorem Descriptor.lookup_words {x : Descriptor} {next : Option Nat} {p : Nat × Word}
    (h : p ∈ x.words next) : (x.words next).lookup p.1 = some p.2 := by
  simp only [words, List.mem_cons, List.not_mem_nil, or_false] at h
  rcases h with rfl | rfl | rfl | rfl | rfl | rfl | rfl <;> rfl

theorem Descriptor.exists_mem_words (x : Descriptor) (next : Option Nat) {k : Nat} (hk : k < 7) :
    ∃ v, (4 * k, v) ∈ x.words next := by
  have h : k = 0 ∨ k = 1 ∨ k = 2 ∨ k = 3 ∨ k = 4 ∨ k = 5 ∨ k = 6 := by omega
  rcases h with rfl | rfl | rfl | rfl | rfl | rfl | rfl <;> simp [words]

section Words

variable {d : Device} {addresses : AddressSource} {m : MemoryDma} {t : TileId}

theorem MemoryDma.exists_describe (ht : t.isShim = false)
    (hs : Script.Completes (m.steps d addresses t)) {b : DmaBlock} (hb : b ∈ m.resolved addresses) :
    ∃ x, (b.describe d addresses t).1 = some x := by
  obtain ⟨hmem, hres⟩ := List.mem_filter.mp hb
  have hc := Script.completes_flatMap.mp (completes_describeSteps ht hs) b hmem
  rw [← Option.isSome_iff_exists, DmaBlock.isSome_describe hc]
  exact hres

theorem MemoryDma.descriptorWord?_eq {b : DmaBlock} {x : Descriptor} {i : Nat}
    (hb : (m.resolved addresses)[i]? = some b) (hx : (b.describe d addresses t).1 = some x)
    {p : Nat × Word} (hp : p ∈ x.words (m.link addresses b)) :
    m.descriptorWord? d addresses t i p.1 = some p.2 := by
  rw [descriptorWord?, hb, Option.bind_some, hx, Option.bind_some, Descriptor.lookup_words hp]

theorem MemoryDma.isSome_descriptorWord? (ht : t.isShim = false)
    (hs : Script.Completes (m.steps d addresses t)) (i : Nat) {k : Nat} (hk : k < 7) :
    (m.descriptorWord? d addresses t i (4 * k)).isSome =
      decide (i < (m.resolved addresses).length) := by
  cases hb : (m.resolved addresses)[i]? with
  | none =>
    rw [descriptorWord?, hb, decide_eq_false (Nat.not_lt.mpr (List.getElem?_eq_none_iff.mp hb))]
    rfl
  | some b =>
    obtain ⟨x, hx⟩ := exists_describe ht hs (List.mem_of_getElem? hb)
    obtain ⟨v, hv⟩ := x.exists_mem_words (m.link addresses b) hk
    rw [descriptorWord?_eq hb hx hv, decide_eq_true (List.getElem?_eq_some_iff.mp hb).1]
    rfl

end Words

/-- The registers of descriptor `i` hold block `b` of the program `m`. -/
structure MemoryDma.HoldsBlock (d : Device) (addresses : AddressSource) (t : TileId) (i : Nat)
    (m : MemoryDma) (b : DmaBlock) (log : WriteLog) : Prop where
  /-- The registers have the words of the block. -/
  words : ∃ x, (b.describe d addresses t).1 = some x ∧ ∀ p ∈ x.words (m.link addresses b),
    log.get? (t.address (descriptorOffset i + p.1)) = some p.2
  /-- A link to a block with a descriptor is on, and names its place. -/
  linked : ∀ j b', (m.resolved addresses)[j]? = some b' → b.next = some b'.label →
    DescriptorControl.nextEnable.get (log.read t (descriptorOffset i + 0x18)) = 1 ∧
      DescriptorControl.nextDescriptor.get (log.read t (descriptorOffset i + 0x18)) = .ofNat j
  /-- Any other link is off. -/
  unlinked : (∀ b' ∈ m.resolved addresses, b.next ≠ some b'.label) →
    DescriptorControl.nextEnable.get (log.read t (descriptorOffset i + 0x18)) = 0

theorem MemoryDma.holdsBlock_of_words {d : Device} {addresses : AddressSource} {t : TileId}
    {i : Nat} {m : MemoryDma} {b : DmaBlock} {log : WriteLog} {x : Descriptor} (hm : m.Valid d)
    (hx : (b.describe d addresses t).1 = some x)
    (h : ∀ p ∈ x.words (m.link addresses b),
      log.get? (t.address (descriptorOffset i + p.1)) = some p.2) :
    m.HoldsBlock d addresses t i b log := by
  have hcontrol : log.read t (descriptorOffset i + 0x18) = x.controlWord (m.link addresses b) := by
    rw [WriteLog.read, WriteLog.wordAt, h (0x18, x.controlWord (m.link addresses b)) (by
      simp [Descriptor.words])]
    rfl
  refine ⟨⟨x, hx, h⟩, fun j b' hb' hnext => ?_, fun hnext => ?_⟩
  · have hj : m.indexOf? addresses b'.label = some j :=
      (indexOf?_eq_some_iff hm).mpr ⟨b', hb', rfl⟩
    have hlink : m.link addresses b = some j := by
      rw [link, hnext, Option.bind_some, hj]
    rw [hcontrol, hlink]
    exact ⟨x.get_nextEnable_some (indexOf?_lt hm hj), x.get_nextDescriptor_some (indexOf?_lt hm hj)⟩
  · have hlink : m.link addresses b = none := by
      rw [link, Option.bind_eq_none_iff]
      intro label hlabel
      refine Option.eq_none_iff_forall_ne_some.mpr fun j hj => ?_
      obtain ⟨b', hb', rfl⟩ := (indexOf?_eq_some_iff hm).mp hj
      exact hnext b' (List.mem_of_getElem? hb') hlabel
    rw [hcontrol, hlink]
    exact x.get_nextEnable_none

/-! ## The phase -/

namespace Device

def memoriesOn (d : Device) (t : TileId) : List MemoryDma :=
  d.memories.filter fun m => t.isAt d.arrayOffset.toNat m.column.toNat m.row.toNat

/-- `after` is `before` with the DMA programs of a design in its descriptors and channels. -/
structure Programmed (d : Device) (addresses : AddressSource) (before after : WriteLog) : Prop where
  /-- A descriptor belongs to the last program that has so many blocks. -/
  block : ∀ (t : TileId), ∀ i < descriptorCount, ∀ m,
    ((d.memoriesOn t).filter fun m => i < (m.resolved addresses).length).getLast? = some m →
    ∃ b, (m.resolved addresses)[i]? = some b ∧ m.HoldsBlock d addresses t i b after
  /-- Where no program has so many blocks, the descriptor stays as it was. -/
  noBlock : ∀ (t : TileId), ∀ i < descriptorCount,
    (∀ m ∈ d.memoriesOn t, (m.resolved addresses).length ≤ i) → ∀ k < 7,
    after.get? (t.address (descriptorOffset i + 4 * k)) =
      before.get? (t.address (descriptorOffset i + 4 * k))
  /-- A channel that the last program starts is on, at the place of the block it starts with. -/
  started : ∀ (t : TileId) (m : MemoryDma), (d.memoriesOn t).getLast? = some m →
    ∀ (direction : ChannelDirection), ∀ channel < channelCount, ∀ i,
    m.startedOn? addresses direction channel = some i →
    after.get? (t.address (direction.controlOffset channel)) = some 1 ∧
      after.get? (t.address (direction.queueOffset channel)) = some (.ofNat i)
  /-- A channel that the last program does not start is off. -/
  idle : ∀ (t : TileId) (m : MemoryDma), (d.memoriesOn t).getLast? = some m →
    ∀ (direction : ChannelDirection), ∀ channel < channelCount,
    m.startedOn? addresses direction channel = none →
    after.get? (t.address (direction.controlOffset channel)) = some 0 ∧
      after.get? (t.address (direction.queueOffset channel)) = some 0
  /-- Every other register stays as it was. -/
  frame : ∀ a, (∀ t o, d.memoriesOn t ≠ [] → IsDescriptorOffset o ∨ IsChannelOffset o →
    a ≠ t.address o) → after.get? a = before.get? a

variable {d : Device} {addresses : AddressSource}

theorem isShim_of_mem_memoriesOn (hv : d.Valid) {t : TileId} {m : MemoryDma}
    (h : m ∈ d.memoriesOn t) : m.Valid d ∧ t.isShim = false := by
  obtain ⟨hm, hat⟩ := List.mem_filter.mp h
  have hvalid := hv.memory m hm
  obtain ⟨-, -, hrow⟩ := TileId.at?_eq_ok (TileId.isAt_iff.mp hat)
  refine ⟨hvalid, ?_⟩
  rw [TileId.isShim, hrow, beq_eq_false_iff_ne]
  exact fun h0 => hvalid.row_ne (UInt8.toNat_inj.mp h0)

theorem writes_dmaSteps {w : Write} (hw : .write w ∈ d.dmaSteps addresses) :
    d.memoriesOn w.register.tile ≠ [] ∧ (w.IsChannel ∨ w.IsDescriptor) := by
  obtain ⟨m, hm, hw⟩ := List.mem_flatMap.mp hw
  unfold Script.onTile at hw
  cases ht : TileId.at? d.arrayOffset.toNat m.column.toNat m.row.toNat with
  | error f => simp [ht] at hw
  | ok t =>
    simp only [ht] at hw
    have htile : w.register.tile = t := m.isOn_steps d addresses t _ hw _ rfl
    refine ⟨fun hnil => ?_, m.isChannel_or_isDescriptor_steps d addresses t w hw⟩
    have hmem : m ∈ d.memoriesOn t := List.mem_filter.mpr ⟨hm, TileId.isAt_iff.mpr ht⟩
    rw [← htile, hnil] at hmem
    cases hmem

theorem completes_of_mem_memoriesOn (hs : (d.dmaSteps addresses).Completes) {t : TileId}
    {m : MemoryDma} (h : m ∈ d.memoriesOn t) : Script.Completes (m.steps d addresses t) :=
  Script.completes_filter_isAt hs m h

theorem get?_dmaSteps (hs : (d.dmaSteps addresses).Completes) (log : WriteLog) (t : TileId)
    {o : Nat} {g : MemoryDma → Option Word}
    (hg : ∀ m ∈ d.memoriesOn t, Script.lastWord? (m.steps d addresses t) (t.address o) = g m) :
    ((d.dmaSteps addresses).applyTo log).get? (t.address o) =
      ((d.memoriesOn t).filterMap g).getLast?.or (log.get? (t.address o)) := by
  rw [Script.get?_applyTo_of_puts hs fun w hw _ => (writes_dmaSteps hw).2.elim (·.2) (·.2),
    dmaSteps, Script.lastWord?_flatMap_onTile t o hs fun m t => m.isOn_steps d addresses t,
    ← memoriesOn, Script.lastWord?_flatMap hg]

theorem get?_descriptor (hvalid : d.Valid) (hs : (d.dmaSteps addresses).Completes)
    (log : WriteLog) (t : TileId) {i o : Nat} (hi : i < descriptorCount) (ho : o < 0x20) :
    ((d.dmaSteps addresses).applyTo log).get? (t.address (descriptorOffset i + o)) =
      ((d.memoriesOn t).filterMap (MemoryDma.descriptorWord? d addresses t i o)).getLast?.or
        (log.get? (t.address (descriptorOffset i + o))) :=
  get?_dmaSteps hs log t fun m hm => by
    obtain ⟨hmv, hshim⟩ := isShim_of_mem_memoriesOn hvalid hm
    exact MemoryDma.lastWord?_descriptor hmv hshim (completes_of_mem_memoriesOn hs hm) hi ho

/-- A register of a descriptor has the word of the last program with so many blocks. -/
theorem get?_descriptor_last (hvalid : d.Valid) (hs : (d.dmaSteps addresses).Completes)
    (log : WriteLog) (t : TileId) {i o : Nat} (hi : i < descriptorCount) (ho : ∃ k < 7, o = 4 * k) :
    ((d.dmaSteps addresses).applyTo log).get? (t.address (descriptorOffset i + o)) =
      ((((d.memoriesOn t).filter fun m => i < (m.resolved addresses).length).getLast?.bind
        (MemoryDma.descriptorWord? d addresses t i o)).or
          (log.get? (t.address (descriptorOffset i + o)))) := by
  obtain ⟨k, hk, rfl⟩ := ho
  rw [get?_descriptor hvalid hs log t hi (by omega), getLast?_filterMap_of_isSome fun m hm => ?_]
  obtain ⟨-, hshim⟩ := isShim_of_mem_memoriesOn hvalid hm
  exact MemoryDma.isSome_descriptorWord? hshim (completes_of_mem_memoriesOn hs hm) i hk

theorem get?_channel (hvalid : d.Valid) (hs : (d.dmaSteps addresses).Completes)
    (log : WriteLog) {t : TileId} {m : MemoryDma} (hm : (d.memoriesOn t).getLast? = some m)
    (direction : ChannelDirection) {channel : Nat} (hch : channel < channelCount) :
    ((d.dmaSteps addresses).applyTo log).get? (t.address (direction.controlOffset channel)) =
        some (if (m.startedOn? addresses direction channel).isSome then 1 else 0) ∧
      ((d.dmaSteps addresses).applyTo log).get? (t.address (direction.queueOffset channel)) =
        some (.ofNat ((m.startedOn? addresses direction channel).getD 0)) := by
  have hchannel : ∀ m ∈ d.memoriesOn t, _ := fun m hm =>
    have h := isShim_of_mem_memoriesOn hvalid hm
    MemoryDma.lastWord?_channel h.1 h.2 (completes_of_mem_memoriesOn hs hm) direction hch
  rw [get?_dmaSteps hs log t fun m hm => (hchannel m hm).1,
    get?_dmaSteps hs log t fun m hm => (hchannel m hm).2, getLast?_filterMap_some,
    getLast?_filterMap_some, hm]
  exact ⟨rfl, rfl⟩

/-- Every run of the DMA phase of a valid design programs it. -/
theorem dmaSteps_programmed (hv : d.issues = []) (hs : (d.dmaSteps addresses).Completes)
    (log : WriteLog) : d.Programmed addresses log ((d.dmaSteps addresses).applyTo log) where
  block t i hi m hm := by
    obtain ⟨hmem, hlen⟩ := List.mem_filter.mp (List.mem_of_getLast? hm)
    obtain ⟨hmv, hshim⟩ := isShim_of_mem_memoriesOn (valid_of_issues hv) hmem
    have hb := List.getElem?_eq_getElem (of_decide_eq_true hlen)
    obtain ⟨x, hx⟩ := MemoryDma.exists_describe hshim (completes_of_mem_memoriesOn hs hmem)
      (List.mem_of_getElem? hb)
    refine ⟨_, hb, MemoryDma.holdsBlock_of_words hmv hx fun p hp => ?_⟩
    obtain ⟨k, hk, hpk⟩ := Descriptor.offset_of_mem_words hp
    rw [get?_descriptor_last (valid_of_issues hv) hs log t hi ⟨k, hk, hpk⟩, hm, Option.bind_some,
      MemoryDma.descriptorWord?_eq hb hx hp, Option.some_or]
  noBlock t i hi hnone k hk := by
    have hnil : (d.memoriesOn t).filter (fun m => i < (m.resolved addresses).length) = [] := by
      rw [List.filter_eq_nil_iff]
      intro m hm
      have := hnone m hm
      simp only [decide_eq_true_eq]
      omega
    rw [get?_descriptor_last (valid_of_issues hv) hs log t hi ⟨k, hk, rfl⟩, hnil]
    rfl
  started t m hm direction channel hch i hstart := by
    have h := get?_channel (valid_of_issues hv) hs log hm direction hch
    rwa [hstart] at h
  idle t m hm direction channel hch hstart := by
    have h := get?_channel (valid_of_issues hv) hs log hm direction hch
    rwa [hstart] at h
  frame a ha := by
    refine Script.get?_applyTo_of_not_written hs fun w hw he => ?_
    obtain ⟨hmem, hplace⟩ := writes_dmaSteps hw
    exact ha _ _ hmem (hplace.symm.imp (·.1) (·.1)) he.symm

/-- Two programs on one tile. The first block of the first one has a buffer without an address, so
the other two move up, and one of them links back to nothing. -/
def sharedTile : Device where
  schemaVersion := "1.0"
  name := "shared"
  arrayOffset := 1
  tiles := [⟨3, 1, none, none⟩]
  buffers := [⟨"in", 3, 1, some 0x1000, 32⟩, ⟨"out", 3, 1, some 0x2000, 32⟩, ⟨"far", 3, 1, none, 32⟩]
  locks := []
  memories :=
    [⟨3, 1,
        [⟨"lost", [⟨"far", .a, 0, 16⟩], [], none, some "ping"⟩,
          ⟨"ping", [⟨"in", .a, 0, 16⟩], [], none, some "pong"⟩,
          ⟨"pong", [⟨"out", .a, 0, 16⟩], [], none, some "lost"⟩],
        [⟨.s2mm, 0, "pong"⟩, ⟨.mm2s, 1, "lost"⟩]⟩,
      ⟨3, 1, [⟨"fill", [⟨"out", .a, 64, 8⟩], [], none, some "fill"⟩],
        [⟨.mm2s, 1, "fill"⟩]⟩]
  switchboxes := []
  shimMuxes := []

theorem sharedTile_programmed : sharedTile.issues = [] ∧
    (sharedTile.dmaSteps sharedTile.addressOf?).Completes ∧
    sharedTile.Programmed sharedTile.addressOf? .empty
      ((sharedTile.dmaSteps sharedTile.addressOf?).applyTo .empty) := by
  have hv : sharedTile.issues = [] := by decide +kernel
  have hs : (sharedTile.dmaSteps sharedTile.addressOf?).Completes := by
    unfold Script.Completes
    decide +kernel
  exact ⟨hv, hs, dmaSteps_programmed hv hs .empty⟩

end Device
end ArrayImage
