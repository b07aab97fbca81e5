import ArrayImage.Proofs.Programming

/-!
# ArrayImage.Proofs.Links

Where the links and the starts of a DMA program go, in any design.

A label that is used more than once names the last of its blocks, and blocks without a descriptor
have no slot, so a link that is on, or a channel that is started, goes to a slot where the same
program has written a block of that label (`MemoryDma.LinksSound`). This needs that no link and no
start names a surplus block, one with a number past the table (`TargetsFit`): the number of such a
block is cut to the width of its field, and the link goes to some other block or to none
(`surplus_not_linksSound`).
-/

namespace ArrayImage

open RegisterMap

/-! ## Slots of labels -/

theorem lastIndex?_eq_some {l : List String} {a : String} {i : Nat} (h : lastIndex? a l = some i) :
    l[i]? = some a := by
  induction l generalizing i with
  | nil => cases h
  | cons x l ih =>
    rw [lastIndex?] at h
    cases hl : lastIndex? a l with
    | some j =>
      rw [hl] at h
      cases h
      exact ih hl
    | none =>
      simp only [hl] at h
      split at h
      · rename_i hxa
        cases h
        rw [hxa]
        rfl
      · cases h

/-- A slot that stands for a descriptor is the place of its label. -/
theorem getElem?_of_slotOf {l : List String} {a : String} {i : Nat} (h : slotOf l a = i)
    (hi : i < noDescriptor) : l[i]? = some a := by
  unfold slotOf at h
  cases hl : lastIndex? a l with
  | none =>
    rw [hl] at h
    exact absurd (h ▸ hi) (Nat.lt_irrefl _)
  | some j =>
    simp only [hl] at h
    have hj : j = i := by omega
    exact hj ▸ lastIndex?_eq_some hl

theorem slotOf_inj {l : List String} {a b : String} {i : Nat} (ha : slotOf l a = i)
    (hb : slotOf l b = i) (hi : i < noDescriptor) : a = b := by
  have h := getElem?_of_slotOf ha hi
  rw [getElem?_of_slotOf hb hi] at h
  exact (Option.some.inj h).symm

theorem lt_noDescriptor {i : Nat} (hi : i < descriptorCount) : i < noDescriptor :=
  Nat.lt_trans hi (by decide)

namespace MemoryDma

def slotLabels (addresses : AddressSource) (m : MemoryDma) : List String :=
  (m.resolved addresses).map DmaBlock.label

def controlWord (addresses : AddressSource) (m : MemoryDma) (b : DmaBlock) (x : Descriptor) :
    Word :=
  x.controlWord (b.next.map (slotOf (m.slotLabels addresses)))

/-- Slot `i` of the table is the one of `label`, and holds the descriptor of a block with this
label. -/
structure Written (d : Device) (addresses : AddressSource) (t : TileId) (m : MemoryDma)
    (log : WriteLog) (label : String) (i : Nat) : Prop where
  slot : slotOf (m.slotLabels addresses) label = i
  lt : i < descriptorCount
  holds : ∃ b x, (b, x) ∈ m.described d addresses t ∧ b.label = label ∧
    ∀ p ∈ x.words (b.next.map (slotOf (m.slotLabels addresses))),
      log.get? (t.address (descriptorOffset i + p.1)) = some p.2

/-- The link of a block is off, or it goes to where the next block is. -/
def LinkSound (d : Device) (addresses : AddressSource) (t : TileId) (m : MemoryDma)
    (log : WriteLog) (b : DmaBlock) (x : Descriptor) : Prop :=
  DescriptorControl.nextEnable.get (m.controlWord addresses b x) = 1 → ∃ next i,
    b.next = some next ∧
      DescriptorControl.nextDescriptor.get (m.controlWord addresses b x) = .ofNat i ∧
      m.Written d addresses t log next i

/-- A start writes nothing, or it turns its channel on where its block is. -/
def StartSound (d : Device) (addresses : AddressSource) (t : TileId) (m : MemoryDma)
    (log : WriteLog) (s : ChannelStart) : Prop :=
  (∀ w, .write w ∉ s.steps t (m.slotLabels addresses)) ∨ ∃ i,
    s.steps t (m.slotLabels addresses) =
      [Step.put t (s.direction.queueOffset s.channel.toNat) (.put (.ofNat i)),
        Step.put t (s.direction.controlOffset s.channel.toNat) (.put 1)] ∧
      m.Written d addresses t log s.block i

/-- All links that are on and all channels that are started go to blocks of the program. -/
structure LinksSound (d : Device) (addresses : AddressSource) (t : TileId) (m : MemoryDma)
    (log : WriteLog) : Prop where
  /-- What is written to a control register is the control word of a block. -/
  control : ∀ w, .write w ∈ m.steps d addresses t → ∀ j < descriptorCount,
    w.register.offset = descriptorOffset j + 0x18 → ∃ b x, (b, x) ∈ m.described d addresses t ∧
      slotOf (m.slotLabels addresses) b.label = j ∧ w.update = .put (m.controlWord addresses b x)
  /-- The links of these words are sound. -/
  link : ∀ b x, (b, x) ∈ m.described d addresses t →
    slotOf (m.slotLabels addresses) b.label < descriptorCount → m.LinkSound d addresses t log b x
  /-- What is written to the control register of a channel turns it off, or is from a start. -/
  channel : ∀ w, .write w ∈ m.steps d addresses t → ∀ (direction : ChannelDirection),
    ∀ c < channelCount, w.register.offset = direction.controlOffset c →
      w.update = .put 0 ∨ ∃ s ∈ m.starts, s.direction = direction ∧ s.channel.toNat = c ∧
        .write w ∈ s.steps t (m.slotLabels addresses)
  /-- These starts are sound. -/
  start : ∀ s ∈ m.starts, m.StartSound d addresses t log s

/-- A label has a slot of the table, or none at all. -/
def Fits (addresses : AddressSource) (m : MemoryDma) (label : String) : Prop :=
  slotOf (m.slotLabels addresses) label < descriptorCount ∨
    slotOf (m.slotLabels addresses) label = noDescriptor

instance (addresses : AddressSource) (m : MemoryDma) (label : String) :
    Decidable (m.Fits addresses label) := by
  unfold Fits
  infer_instance

/-- No link and no start names a surplus block. -/
structure TargetsFit (addresses : AddressSource) (m : MemoryDma) : Prop where
  link : ∀ b ∈ m.resolved addresses, ∀ next ∈ b.next, m.Fits addresses next
  start : ∀ s ∈ m.starts, m.Fits addresses s.block

section

variable {d : Device} {addresses : AddressSource} {t : TileId} {m : MemoryDma}

theorem exists_described (hdesc : (m.describeSteps d addresses t).Completes) {label : String}
    {i : Nat} (h : slotOf (m.slotLabels addresses) label = i) (hi : i < descriptorCount) :
    ∃ p ∈ m.described d addresses t, p.1.label = label := by
  have hl := getElem?_of_slotOf h (lt_noDescriptor hi)
  rw [slotLabels, ← described_map_fst hdesc, List.map_map, List.getElem?_map,
    Option.map_eq_some_iff] at hl
  obtain ⟨p, hp, hlabel⟩ := hl
  exact ⟨p, List.mem_of_getElem? hp, hlabel⟩

/-- The slot of a label holds the descriptor of the last block with this label. -/
theorem written_of_slot (ht : t.isShim = false) (hs : Script.Completes (m.steps d addresses t))
    (log : WriteLog) {label : String} {i : Nat}
    (h : slotOf (m.slotLabels addresses) label = i) (hi : i < descriptorCount) :
    m.Written d addresses t (Script.applyTo (m.steps d addresses t) log) label i := by
  have hdesc := completes_describeSteps ht hs
  have htable : (m.tableSteps d addresses t).Completes := by
    rw [steps_eq ht hs] at hs
    simp only [Script.completes_append] at hs
    exact hs.1.2
  -- the blocks that are written to this slot, and the last one of them
  let here : DmaBlock × Descriptor → Bool := fun p =>
    decide (slotOf (m.slotLabels addresses) p.1.label = i)
  obtain ⟨p, hp, hlabel⟩ := exists_described hdesc h hi
  have hne : (m.described d addresses t).filter here ≠ [] := by
    refine List.ne_nil_of_mem (List.mem_filter.mpr ⟨hp, decide_eq_true ?_⟩)
    rw [hlabel, h]
  obtain ⟨q, hq⟩ := Option.ne_none_iff_exists'.mp (mt List.getLast?_eq_none_iff.mp hne)
  obtain ⟨hmem, hslot⟩ := List.mem_filter.mp (List.mem_of_getLast? hq)
  have hslot : slotOf (m.slotLabels addresses) q.1.label = i := of_decide_eq_true hslot
  refine ⟨h, hi, q.1, q.2, hmem, slotOf_inj hslot h (lt_noDescriptor hi), fun w hw => ?_⟩
  obtain ⟨k, hk, hwk⟩ := Descriptor.offset_of_mem_words hw
  have hwords : ∀ y ∈ m.described d addresses t,
      (if slotOf (m.slotLabels addresses) y.1.label = i then
        (y.2.words (y.1.next.map (slotOf (m.slotLabels addresses)))).lookup w.1 else none).isSome =
      here y := by
    intro y _
    by_cases hy : slotOf (m.slotLabels addresses) y.1.label = i
    · obtain ⟨v, hv⟩ := y.2.exists_mem_words (y.1.next.map (slotOf (m.slotLabels addresses))) hk
      rw [if_pos hy, hwk, Descriptor.lookup_words hv]
      exact (decide_eq_true hy).symm
    · rw [if_neg hy]
      exact (decide_eq_false hy).symm
  have hputs : ∀ v, .write v ∈ m.steps d addresses t →
      v.address = t.address (descriptorOffset i + w.1) → ∃ u, v.update = .put u := fun v hv _ =>
    (m.isChannel_or_isDescriptor_steps d addresses t v hv).elim (·.2) (·.2)
  have hc := Script.completes_flatMap.mp htable
  rw [Script.get?_applyTo_of_puts hs hputs, lastWord?_eq_tableSteps ht hs hi (by omega),
    tableSteps, Script.lastWord?_flatMap fun y hy =>
      lastWord?_descriptorSteps (hc y hy) hi (by omega)]
  rw [show (m.resolved addresses).map DmaBlock.label = m.slotLabels addresses from rfl,
    getLast?_filterMap_of_isSome hwords, hq, Option.bind_some, if_pos hslot,
    Descriptor.lookup_words hw]
  rfl

theorem link_sound (hfit : m.TargetsFit addresses) (ht : t.isShim = false)
    (hs : Script.Completes (m.steps d addresses t)) (log : WriteLog) {b : DmaBlock} {x : Descriptor}
    (hb : b ∈ m.resolved addresses) :
    m.LinkSound d addresses t (Script.applyTo (m.steps d addresses t) log) b x := by
  intro hon
  rw [controlWord] at hon ⊢
  cases hnext : b.next with
  | none =>
    rw [hnext, Option.map_none, Descriptor.get_nextEnable_none] at hon
    cases hon
  | some next =>
    rw [hnext, Option.map_some] at hon
    rcases hfit.link b hb next hnext with hlt | hnone
    · refine ⟨next, _, rfl, ?_, written_of_slot ht hs log rfl hlt⟩
      exact x.get_nextDescriptor_some hlt
    · have hoff : x.controlWord (some noDescriptor) = x.controlWord none := rfl
      rw [hnone, hoff, Descriptor.get_nextEnable_none] at hon
      cases hon

theorem start_sound (hfit : m.TargetsFit addresses) (ht : t.isShim = false)
    (hs : Script.Completes (m.steps d addresses t)) (log : WriteLog) {s : ChannelStart}
    (hmem : s ∈ m.starts) :
    m.StartSound d addresses t (Script.applyTo (m.steps d addresses t) log) s := by
  rw [StartSound]
  rcases hfit.start s hmem with hlt | hnone
  · have hne := Nat.ne_of_lt (lt_noDescriptor hlt)
    by_cases hc : s.channel.toNat < channelCount
    · refine .inr ⟨_, ?_, written_of_slot ht hs log rfl hlt⟩
      simp only [ChannelStart.steps, if_neg hne, if_pos hc, channelWord_true]
      rw [startDescriptor_set _ hlt]
    · refine .inl fun w hw => ?_
      simp [ChannelStart.steps, hne, hc] at hw
  · refine .inl fun w hw => ?_
    simp [ChannelStart.steps, hnone] at hw

theorem write_mem_steps (ht : t.isShim = false) (hs : Script.Completes (m.steps d addresses t))
    {w : Write} (hw : .write w ∈ m.steps d addresses t) :
    .write w ∈ idleSteps t ∨ .write w ∈ m.tableSteps d addresses t ∨
      .write w ∈ m.startSteps addresses t := by
  have hdescribe : Script.AllWrites (fun _ => False) (m.describeSteps d addresses t) :=
    Script.allWrites_flatMap.mpr fun b _ => b.allWrites_describe d addresses t
  rw [steps_eq ht hs] at hw
  simp only [List.mem_append] at hw
  rcases hw with ((hw | hw) | hw) | hw
  · exact .inl hw
  · exact (hdescribe w hw).elim
  · exact .inr (.inl hw)
  · exact .inr (.inr hw)

theorem control_of_write (ht : t.isShim = false) (hs : Script.Completes (m.steps d addresses t))
    {w : Write} (hw : .write w ∈ m.steps d addresses t) {j : Nat} (hj : j < descriptorCount)
    (ho : w.register.offset = descriptorOffset j + 0x18) : ∃ b x,
      (b, x) ∈ m.described d addresses t ∧ slotOf (m.slotLabels addresses) b.label = j ∧
        w.update = .put (m.controlWord addresses b x) := by
  have hchannel : ¬ w.IsChannel := by
    intro hch
    have hlo := hch.1.bounds
    have hhi := descriptorOffset_bounds (i := j) (o := 0x18) hj (by decide)
    omega
  rcases write_mem_steps ht hs hw with hw | hw | hw
  · exact absurd (isChannel_idleSteps t w hw) hchannel
  · obtain ⟨⟨b, x⟩, hmem, hw⟩ := List.mem_flatMap.mp hw
    simp only [descriptorSteps] at hw
    split at hw
    · rcases List.mem_append.mp hw with hw | hw
      · obtain ⟨p, hp, hput⟩ := List.mem_map.mp hw
        obtain ⟨-, hoff, hu⟩ := Step.eq_of_put_eq_write hput
        obtain ⟨k, hk, hpk⟩ := Descriptor.offset_of_mem_words hp
        obtain ⟨hslot, hplace⟩ := (descriptorOffset_add_inj (by omega) (by decide)).mp
          (hoff.symm.trans ho)
        refine ⟨b, x, hmem, hslot, ?_⟩
        have hword := Descriptor.lookup_words hp
        rw [hplace] at hword
        rw [hu, controlWord]
        exact congrArg Update.put (Option.some.inj hword).symm
      · simp at hw
    · simp at hw
  · exact absurd (isChannel_startSteps addresses t m w hw) hchannel

theorem channel_of_write (ht : t.isShim = false) (hs : Script.Completes (m.steps d addresses t))
    {w : Write} (hw : .write w ∈ m.steps d addresses t) {direction : ChannelDirection} {c : Nat}
    (hc : c < channelCount) (ho : w.register.offset = direction.controlOffset c) :
    w.update = .put 0 ∨ ∃ s ∈ m.starts, s.direction = direction ∧ s.channel.toNat = c ∧
      .write w ∈ s.steps t (m.slotLabels addresses) := by
  rcases write_mem_steps ht hs hw with hw | hw | hw
  · rw [idleSteps_eq, List.mem_map] at hw
    obtain ⟨p, hp, hput⟩ := hw
    obtain ⟨-, -, hu⟩ := Step.eq_of_put_eq_write hput
    have hzero : ∀ q ∈ [(0x00, 0), (0x04, 0), (0x08, 0), (0x0C, 0), (0x10, 0), (0x14, 0),
        (0x18, 0), ((0x1C, 0) : Nat × Word)], q.2 = 0 := by decide
    rw [hzero p hp] at hu
    exact .inl hu
  · have hd := (isDescriptor_tableSteps d addresses t m w hw).1.bounds
    have hch := IsChannelOffset.bounds ⟨direction, c, hc, .inl ho⟩
    omega
  · obtain ⟨s, hmem, hw⟩ := List.mem_flatMap.mp hw
    refine .inr ⟨s, hmem, ?_⟩
    have hsteps := hw
    simp only [ChannelStart.steps] at hw
    split at hw
    · simp at hw
    · split at hw
      · rename_i hlt
        simp only [List.mem_cons, List.not_mem_nil, or_false] at hw
        rcases hw with hw | hw
        · have hq := (Step.eq_of_put_eq_write hw.symm).2.1
          exact absurd (ho.symm.trans hq) (controlOffset_ne_queueOffset _ _ _ _)
        · have hq := (Step.eq_of_put_eq_write hw.symm).2.1
          obtain ⟨hdir, hch⟩ := (controlOffset_inj hlt hc).mp (hq.symm.trans ho)
          exact ⟨hdir, hch, hsteps⟩
      · simp at hw

/-- Where no link and no start names a surplus block, links and starts go to blocks. -/
theorem linksSound_of_targetsFit (hfit : m.TargetsFit addresses) (ht : t.isShim = false)
    (hs : Script.Completes (m.steps d addresses t)) (log : WriteLog) :
    m.LinksSound d addresses t (Script.applyTo (m.steps d addresses t) log) := by
  constructor
  case control =>
    intro w hw j hj ho
    exact control_of_write ht hs hw hj ho
  case link =>
    intro b x hb _
    refine link_sound hfit ht hs log ?_
    rw [← described_map_fst (completes_describeSteps ht hs)]
    exact List.mem_map.mpr ⟨(b, x), hb, rfl⟩
  case channel =>
    intro w hw direction c hc ho
    exact channel_of_write ht hs hw hc ho
  case start =>
    intro s hmem
    exact start_sound hfit ht hs log hmem

end

/-- A program of 17 blocks with transfers on a tile with 16 descriptors. Fifteen blocks have one
label, and so one descriptor, and links and starts name it and blocks without a descriptor, but not
the surplus block. -/
def crowding : MemoryDma where
  column := 3
  row := 1
  blocks :=
    [⟨"lost", [⟨"far", .a, 0, 16⟩], [], none, some "tail"⟩, ⟨"idle", [], [], none, some "many"⟩] ++
      List.replicate 15 ⟨"many", [⟨"in", .a, 0, 16⟩], [], none, some "tail"⟩ ++
      [⟨"tail", [⟨"in", .a, 64, 8⟩], [], none, some "many"⟩,
        ⟨"over", [⟨"in", .b, 0, 4⟩], [], none, some "lost"⟩]
  starts := [⟨.s2mm, 0, "many"⟩, ⟨.s2mm, 0, "idle"⟩, ⟨.mm2s, 1, "tail"⟩, ⟨.mm2s, 7, "tail"⟩]

def crowdedTile (m : MemoryDma) : Device where
  schemaVersion := "1.0"
  name := "crowded"
  arrayOffset := 0
  tiles := [⟨3, 1, none, none⟩]
  buffers := [⟨"in", 3, 1, some 0x1000, 32⟩, ⟨"far", 3, 1, none, 32⟩]
  locks := []
  memories := [m]
  switchboxes := []
  shimMuxes := []

theorem crowding_linksSound :
    let d := crowdedTile crowding
    let t : TileId := ⟨0, 3, 1, by decide, by decide, by decide⟩
    crowding.TargetsFit d.addressOf? ∧ t.isShim = false ∧
      Script.Completes (crowding.steps d d.addressOf? t) ∧
      crowding.LinksSound d d.addressOf? t
        (Script.applyTo (crowding.steps d d.addressOf? t) .empty) := by
  intro d t
  have hfit : crowding.TargetsFit d.addressOf? := ⟨by decide +kernel, by decide +kernel⟩
  have hs : Script.Completes (crowding.steps d d.addressOf? t) := by
    rw [Script.Completes]
    decide +kernel
  exact ⟨hfit, rfl, hs, linksSound_of_targetsFit hfit rfl hs .empty⟩

def surplus : MemoryDma where
  column := 3
  row := 1
  blocks := (List.range 17).map fun i =>
    ⟨s!"b{i}", [⟨"in", .a, 0, 16⟩], [], none, if i = 0 then some "b16" else none⟩
  starts := [⟨.s2mm, 0, "b16"⟩]

/-- The last block has no descriptor, but the link to it is on and its channel is started. -/
theorem surplus_not_linksSound :
    let d := crowdedTile surplus
    let t : TileId := ⟨0, 3, 1, by decide, by decide, by decide⟩
    let log := Script.applyTo (surplus.steps d d.addressOf? t) .empty
    t.isShim = false ∧ Script.Completes (surplus.steps d d.addressOf? t) ∧
      (∃ b x, (b, x) ∈ surplus.described d d.addressOf? t ∧
        slotOf (surplus.slotLabels d.addressOf?) b.label = 0 ∧
        ¬ surplus.LinkSound d d.addressOf? t log b x) ∧
      ∃ s ∈ surplus.starts, ¬ surplus.StartSound d d.addressOf? t log s := by
  intro d t log
  have hs : Script.Completes (surplus.steps d d.addressOf? t) := by
    rw [Script.Completes]
    decide +kernel
  have hslot : slotOf (surplus.slotLabels d.addressOf?) "b16" = 16 := by decide +kernel
  have hnone : ∀ i, ¬ surplus.Written d d.addressOf? t log "b16" i := by
    intro i h
    have hlt := h.lt
    rw [← h.slot, hslot] at hlt
    exact absurd hlt (by decide)
  refine ⟨rfl, hs, ?_, ?_⟩
  · refine ⟨⟨"b0", [⟨"in", .a, 0, 16⟩], [], none, some "b16"⟩, _, List.mem_cons_self,
      by decide +kernel, ?_⟩
    intro hsound
    obtain ⟨next, i, hnext, -, hwritten⟩ := hsound (by decide +kernel)
    cases hnext
    exact hnone i hwritten
  · refine ⟨_, List.mem_cons_self, ?_⟩
    rintro (hsilent | ⟨i, -, hwritten⟩)
    · refine hsilent ⟨⟨t, ChannelDirection.s2mm.controlOffset 0, by decide⟩, .put 1, by decide⟩ ?_
      simp only [ChannelStart.steps, hslot]
      exact List.mem_cons_of_mem _ (List.mem_singleton.mpr rfl)
    · exact hnone i hwritten

end MemoryDma
end ArrayImage
