import ArrayImage.Proofs.Skeleton

/-!
# ArrayImage.Proofs.Faults

What can end a run of a valid design in a fault.

`Device.FaultCause` lists the causes. The phases are gone through item by item: steps that cannot
end a run complete, and the others name the cause of their fault (`faultCause_script`). Tiles of
parts are declared, so only the offset of the array can keep them from being located, and all
places that a phase computes are inside the window and need no more than 32 bits
(`Write.PlaceFits`).

* `compile_faults`: a run that ends in a fault has a cause, and a run without a cause has an image
  or ends at a program that cannot be trusted.
-/

namespace ArrayImage

open RegisterMap

/-! ## Places in 32-bit arithmetic

The places of packet slots and descriptors are multiples of an index, computed in 32 bits. No index
that a step can have makes that fail, so the steps give the place as a number.
-/

theorem slotOffset?_of_port {shim : Bool} {port slot : Nat} (hp : port < Port.limit shim)
    (hs : slot < slotsPerPort) : slotOffset? port slot = .ok (slotOffset port slot) := by
  have hlimit := Port.limit_le shim
  have hports : checkedMul 32 0x10 port = .ok (0x10 * port) := if_pos (by omega)
  have htable : checkedAdd 32 slotBase (0x10 * port) = .ok (slotBase + 0x10 * port) :=
    if_pos (by rw [slotBase]; omega)
  have hslots : checkedMul 32 4 slot = .ok (4 * slot) := if_pos (by rw [slotsPerPort] at hs; omega)
  have hsum : checkedAdd 32 (slotBase + 0x10 * port) (4 * slot) = .ok (slotOffset port slot) :=
    if_pos (by rw [slotBase]; rw [slotsPerPort] at hs; omega)
  simp only [slotOffset?, hports, htable, hslots, bind, Except.bind]
  exact hsum

theorem descriptorOffset?_of_lt {i : Nat} (hi : i < descriptorCount) :
    descriptorOffset? i = .ok (descriptorOffset i) := by
  rw [descriptorCount] at hi
  have hskipped : checkedMul 32 i 0x20 = .ok (i * 0x20) := if_pos (by omega)
  have hsum : checkedAdd 32 descriptors.base (i * 0x20) = .ok (descriptorOffset i) :=
    if_pos (by simp only [descriptors]; omega)
  simp only [descriptorOffset?, hskipped, bind, Except.bind]
  exact hsum

/-- A packet slot and a register of a descriptor are where 32-bit arithmetic puts them, without an
overflow on the way. -/
structure Write.PlaceFits (w : Write) : Prop where
  slot : slotBase ≤ w.register.offset → ∃ port < Port.limit w.register.tile.isShim,
    ∃ slot < slotsPerPort, slotOffset? port slot = .ok w.register.offset
  descriptor : w.IsDescriptor → ∃ i < descriptorCount, ∃ k < 7,
    (descriptorOffset? i >>= fun place => checkedAdd 32 place (4 * k)) = .ok w.register.offset

namespace Write

variable {w : Write}

theorem IsDescriptor.exists_place (h : w.IsDescriptor) : ∃ i < descriptorCount, ∃ k < 7,
    (descriptorOffset? i >>= fun place => checkedAdd 32 place (4 * k)) = .ok w.register.offset := by
  obtain ⟨⟨i, hi, k, hk, ho⟩, -⟩ := h
  have hbounds := descriptorOffset_bounds hi (show 4 * k < 0x20 by omega)
  refine ⟨i, hi, k, hk, ?_⟩
  rw [descriptorOffset?_of_lt hi, ho]
  exact if_pos (by omega)

theorem placeFits_of_lt (h : w.register.offset < slotBase) : w.PlaceFits where
  slot hbase := absurd h (Nat.not_lt.mpr hbase)
  descriptor hd := hd.exists_place

theorem IsRoute.placeFits (h : w.IsRoute) : w.PlaceFits where
  slot hbase := by
    obtain ⟨⟨port, hp, ho⟩, -⟩ := h
    have hlimit := Port.limit_le w.register.tile.isShim
    -- masters and slaves come before the slots
    rcases ho with ho | ho | ⟨slot, hs, ho⟩
    · simp only [ho, masterOffset, masterBase, slotBase] at hbase
      omega
    · simp only [ho, slaveOffset, slaveBase, slotBase] at hbase
      omega
    · rw [ho]
      exact ⟨port, hp, slot, hs, slotOffset?_of_port hp hs⟩
  descriptor hd := hd.exists_place

theorem IsMux.placeFits (h : w.IsMux) : w.PlaceFits := by
  refine placeFits_of_lt ?_
  rcases h.1 with ho | ho <;> rw [ho] <;> decide

theorem placeFits_of_dma (h : w.IsChannel ∨ w.IsDescriptor) : w.PlaceFits := by
  refine placeFits_of_lt ?_
  rw [slotBase]
  rcases h with h | h
  · have := h.1.bounds
    omega
  · have := h.1.bounds
    omega

end Write

theorem Device.placeFits_streamSteps (d : Device) :
    Script.AllWrites Write.PlaceFits d.streamSteps := by
  rw [streamSteps_eq, Script.allWrites_append]
  exact ⟨fun w hw => (d.isRoute_switchSteps w hw).placeFits,
    fun w hw => (d.isMux_muxSteps w hw).placeFits⟩

theorem Device.placeFits_dmaSteps (d : Device) (addresses : AddressSource) :
    Script.AllWrites Write.PlaceFits (d.dmaSteps addresses) :=
  fun _ hw => Write.placeFits_of_dma (writes_dmaSteps hw).2

/-! ## Tiles -/

variable {P : Fault → Prop}

theorem loadSteps.allFaults_failed (t : TileId) (path : String) (cause : LoadError) :
    Script.AllFaults P (failed t path cause) := by
  unfold failed
  split <;> simp

theorem allFaults_loadSteps {source : ProgramSource} {dir : String} {t : TileId} {x : Tile}
    (hc : 0 < t.column)
    (hP : ∀ core, x.core = some core → ∀ image,
      source (programPath dir x.column x.row core.programFile) = .ok image →
      ∀ s ∈ image.segments, ∀ f, s.verdict = .broken f → P f) :
    Script.AllFaults P (loadSteps source dir t x) := by
  have hremarks : ∀ image : ProgramImage, Script.AllFaults P (image.remarks t) := by
    intro image
    unfold ProgramImage.remarks
    split <;> simp
  have h := x.loads_loadSteps source dir t
  generalize loadSteps source dir t x = steps at h ⊢
  cases h with
  | absent => simp
  | unread => exact loadSteps.allFaults_failed t _ _
  | placed _ _ fits =>
    rw [Script.allFaults_append, Script.allFaults_flatMap]
    refine ⟨hremarks _, ?_⟩
    intro s hs
    exact (Segment.completes_placeSteps hc (ProgramImage.verdict_eq_fits fits s hs)).allFaults
  | rejected =>
    exact Script.allFaults_append.mpr ⟨hremarks _, loadSteps.allFaults_failed t _ _⟩
  | broken core_eq read broken =>
    obtain ⟨s, hs, hsf⟩ := ProgramImage.verdict_eq_broken broken
    rw [Script.allFaults_append]
    refine ⟨hremarks _, ?_⟩
    simpa using hP _ core_eq _ read s hs _ hsf

/-! ## Stream switches and shim muxes -/

theorem Connect.completes_steps {t : TileId} (hc : 0 < t.column) (c : Connect) :
    (c.steps t).Completes := by
  have hlimit := Port.limit_le t.isShim
  unfold steps
  split
  · simp [Step.stop?]
  · rename_i slave hs
    have hs := Port.number_lt hs
    split
    · simp [Step.stop?]
    · rename_i master hm
      have hm := Port.number_lt hm
      simp only [Script.completes_cons, Script.completes_nil, and_true]
      constructor
      · exact Step.stop?_put_eq_none_iff.mpr ⟨hc, masterOffset_lt (by omega)⟩
      · exact Step.stop?_put_eq_none_iff.mpr ⟨hc, slaveOffset_lt (by omega)⟩

theorem Switchbox.select_eq_fault {s : Switchbox} {names : List String} {mask : Word}
    {arbiter : Option UInt8} {f : Fault} (h : s.select names mask arbiter = .fault f) :
    f = .shiftOverflow ∧ ∃ name ∈ names, ∃ a, s.amsel? name = some a ∧ 32 ≤ a.msel := by
  induction names generalizing mask arbiter with
  | nil => cases h
  | cons name rest ih =>
    rw [select] at h
    cases ha : s.amsel? name with
    | none =>
      simp only [ha] at h
      cases h
    | some a =>
      simp only [ha] at h
      split at h
      · obtain ⟨hf, other, ho, b, hb⟩ := ih h
        exact ⟨hf, other, List.mem_cons_of_mem _ ho, b, hb⟩
      · cases h
        exact ⟨rfl, name, List.mem_cons_self, a, ha, UInt8.not_lt.mp ‹_›⟩

theorem MasterSet.allFaults_steps {t : TileId} (hc : 0 < t.column) {s : Switchbox} {m : MasterSet}
    (hP : ∀ range, m.dest.bundle.ports .master t.isShim = some range → ∀ name ∈ m.amsels,
      ∀ a, s.amsel? name = some a → 32 ≤ a.msel → P .shiftOverflow) :
    Script.AllFaults P (m.steps t s) := by
  have hlimit := Port.limit_le t.isShim
  unfold steps
  split
  · simp
  · rename_i master hm
    have hlt := Port.number_lt hm
    split
    · simp
    · rename_i f hf
      obtain ⟨rfl, name, hname, a, ha, hmsel⟩ := Switchbox.select_eq_fault hf
      cases hr : m.dest.bundle.ports .master t.isShim with
      | none =>
        rw [Port.number, hr] at hm
        cases hm
      | some range => simpa using hP range hr name hname a ha hmsel
    · simp
    · refine Script.Completes.allFaults ?_
      simp only [Script.completes_cons, Script.completes_nil, and_true]
      exact Step.stop?_put_eq_none_iff.mpr ⟨hc, masterOffset_lt (by omega)⟩

theorem PacketRule.completes_steps {t : TileId} (hc : 0 < t.column) (s : Switchbox)
    {slave slot : Nat} (hs : slave < Port.limit t.isShim) (hk : slot < slotsPerPort)
    (r : PacketRule) : (r.steps t s slave slot).Completes := by
  have hlimit := Port.limit_le t.isShim
  unfold steps
  split
  · simp [Step.stop?]
  · simp only [Script.completes_cons, Script.completes_nil, and_true]
    constructor
    · exact Step.stop?_put_eq_none_iff.mpr ⟨hc, slaveOffset_lt (by omega)⟩
    · exact Step.stop?_put_eq_none_iff.mpr ⟨hc, slotOffset_lt (by omega) hk⟩

theorem PacketTable.completes_steps {t : TileId} (hc : 0 < t.column) (s : Switchbox)
    (p : PacketTable) : (p.steps t s).Completes := by
  unfold steps
  split
  · simp [Step.stop?]
  · rename_i slave hs
    rw [Script.completes_append]
    constructor
    · rw [Script.completes_iff]
      intro x hx
      obtain ⟨ys, hys, hxy⟩ := List.mem_flatten.mp hx
      obtain ⟨slot, hslot, rfl⟩ := List.mem_mapIdx.mp hys
      have hk : slot < slotsPerPort := Nat.lt_of_lt_of_le hslot (List.length_take_le _ _)
      have hrule := PacketRule.completes_steps hc s (Port.number_lt hs) hk (p.rules.take _)[slot]
      exact Script.completes_iff.mp hrule x hxy
    · split <;> simp [Step.stop?]

theorem Connect.completes_muxSteps {t : TileId} (hc : 0 < t.column) (c : Connect) :
    (c.muxSteps t).Completes := by
  unfold muxSteps
  split
  · simp [Step.stop?]
  · simp
  · rename_i o bits hb
    simp only [Script.completes_cons, Script.completes_nil, and_true]
    refine Step.stop?_put_eq_none_iff.mpr ⟨hc, ?_⟩
    rcases Connect.muxBits_offset hb with rfl | rfl <;> decide

/-! ## DMA programs -/

theorem completes_idleSteps {t : TileId} (hc : 0 < t.column) : (idleSteps t).Completes := by
  simp only [idleSteps, Script.completes_flatMap, Script.completes_cons, Script.completes_nil,
    and_true]
  intro direction _ channel hchannel
  have hchannel := List.mem_range.mp hchannel
  constructor
  · exact Step.stop?_put_eq_none_iff.mpr
      ⟨hc, IsChannelOffset.lt_windowSize ⟨direction, channel, hchannel, .inl rfl⟩⟩
  · exact Step.stop?_put_eq_none_iff.mpr
      ⟨hc, IsChannelOffset.lt_windowSize ⟨direction, channel, hchannel, .inr rfl⟩⟩

theorem completes_descriptorSteps {t : TileId} (hc : 0 < t.column) (labels : List String)
    (b : DmaBlock) (x : Descriptor) : (descriptorSteps t labels b x).Completes := by
  simp only [descriptorSteps]
  split
  · rename_i hslot
    rw [Script.completes_append]
    constructor
    · rw [Script.completes_iff]
      intro y hy
      obtain ⟨p, hp, rfl⟩ := List.mem_map.mp hy
      obtain ⟨k, hk, he⟩ := Descriptor.offset_of_mem_words hp
      exact Step.stop?_put_eq_none_iff.mpr
        ⟨hc, MemoryDma.descriptorOffset_lt_windowSize hslot (by omega)⟩
    · simp [Step.stop?]
  · simp [Step.stop?]

theorem ChannelStart.completes_steps {t : TileId} (hc : 0 < t.column) (labels : List String)
    (s : ChannelStart) : (s.steps t labels).Completes := by
  simp only [steps]
  split
  · simp [Step.stop?]
  · split
    · rename_i hchannel
      simp only [Script.completes_cons, Script.completes_nil, and_true]
      constructor
      · exact Step.stop?_put_eq_none_iff.mpr
          ⟨hc, IsChannelOffset.lt_windowSize ⟨s.direction, _, hchannel, .inr rfl⟩⟩
      · exact Step.stop?_put_eq_none_iff.mpr
          ⟨hc, IsChannelOffset.lt_windowSize ⟨s.direction, _, hchannel, .inl rfl⟩⟩
    · simp [Step.stop?]

theorem Device.gather_eq_fault {d : Device} {addresses : AddressSource} {ts : List Transfer}
    {a b : Option BufferSpan} {f : Fault} (h : d.gather addresses ts a b = .fault f) :
    f = .addOverflow ∧ ∃ t ∈ ts, ∃ base, addresses t.buffer = some base ∧
      0x10000000000000000 ≤ base.toNat + t.offset.toNat := by
  induction ts generalizing a b with
  | nil => cases h
  | cons t rest ih =>
    have hrest : (∃ a b, d.gather addresses rest a b = .fault f) →
        f = .addOverflow ∧ ∃ u ∈ t :: rest, ∃ base, addresses u.buffer = some base ∧
          0x10000000000000000 ≤ base.toNat + u.offset.toNat := by
      rintro ⟨a, b, hg⟩
      obtain ⟨hf, u, hu, hbase⟩ := ih hg
      exact ⟨hf, u, List.mem_cons_of_mem _ hu, hbase⟩
    rw [gather] at h
    cases ht : addresses t.buffer with
    | none =>
      simp only [ht] at h
      cases h
    | some base =>
      simp only [ht] at h
      cases hadd : checkedAdd 64 base.toNat t.offset.toNat with
      | error g =>
        simp only [hadd] at h
        cases h
        obtain ⟨rfl, hle⟩ := checkedAdd_eq_error hadd
        exact ⟨rfl, t, List.mem_cons_self, base, ht, hle⟩
      | ok address =>
        simp only [hadd] at h
        cases hslot : t.slot with
        | a =>
          simp only [hslot] at h
          exact hrest ⟨_, _, h⟩
        | b =>
          simp only [hslot] at h
          exact hrest ⟨_, _, h⟩

theorem DmaBlock.allFaults_describe {d : Device} {addresses : AddressSource} {t : TileId}
    {b : DmaBlock}
    (hP : ∀ x ∈ b.transfers, ∀ base, addresses x.buffer = some base →
      0x10000000000000000 ≤ base.toNat + x.offset.toNat → P .addOverflow) :
    Script.AllFaults P (b.describe d addresses t).2 := by
  unfold describe
  split
  · simp
  · split
    · simp
    · rename_i f hf
      obtain ⟨rfl, x, hx, base, hbase, hle⟩ := Device.gather_eq_fault hf
      simpa using hP x hx base hbase hle
    · intro f hf
      obtain ⟨p, -, hp⟩ := List.mem_map.mp hf
      cases hp

theorem MemoryDma.allFaults_steps {d : Device} {addresses : AddressSource} {t : TileId}
    (hc : 0 < t.column) {m : MemoryDma}
    (hP : ∀ b ∈ m.blocks, ∀ x ∈ b.transfers, ∀ base, addresses x.buffer = some base →
      0x10000000000000000 ≤ base.toNat + x.offset.toNat → P .addOverflow) :
    Script.AllFaults P (m.steps d addresses t) := by
  simp only [steps]
  split
  · simp
  · simp only [Script.allFaults_append, Script.allFaults_flatMap]
    refine ⟨⟨⟨(completes_idleSteps hc).allFaults, ?_⟩, ?_⟩, ?_⟩
    · intro b hb
      exact DmaBlock.allFaults_describe (hP b hb)
    · intro p _
      exact (completes_descriptorSteps hc _ p.1 p.2).allFaults
    · intro s _
      exact (s.completes_steps hc _).allFaults

/-! ## Designs -/

namespace Device

/-- What makes a run of a valid design end in a fault. -/
inductive FaultCause (d : Device) (source : ProgramSource) (dir : String)
    (addresses : AddressSource) : Fault → Prop where
  /-- A tile is declared in an array that is too far out. -/
  | array {x : Tile} (tile : x ∈ d.tiles) (offset : 0x400000000 ≤ d.arrayOffset.toNat) :
    FaultCause d source dir addresses .arrayTooLarge
  /-- A master set with a port on the switch has an amsel whose select has no bit in a word. -/
  | select {s : Switchbox} {m : MasterSet} {range : PortRange} {name : String} {a : Amsel}
    (switchbox : s ∈ d.switchboxes) (masterSet : m ∈ s.masterSets)
    (mapped : m.dest.bundle.ports .master (s.row == 0) = some range) (named : name ∈ m.amsels)
    (amsel : s.amsel? name = some a) (msel : 32 ≤ a.msel) :
    FaultCause d source dir addresses .shiftOverflow
  /-- A transfer starts outside the address space. -/
  | transfer {m : MemoryDma} {b : DmaBlock} {t : Transfer} {base : UInt64}
    (memory : m ∈ d.memories) (block : b ∈ m.blocks) (transfer : t ∈ b.transfers)
    (resolved : addresses t.buffer = some base)
    (overflow : 0x10000000000000000 ≤ base.toNat + t.offset.toNat) :
    FaultCause d source dir addresses .addOverflow
  /-- An executable segment of a program ends outside the address space. -/
  | program {x : Tile} {core : Core} {image : ProgramImage} {s : Segment}
    (tile : x ∈ d.tiles) (compute : x.kind = .compute) (core_eq : x.core = some core)
    (loaded : source (programPath dir x.column x.row core.programFile) = .ok image)
    (segment : s ∈ image.segments) (executable : s.executable = true)
    (overflow : 0x10000000000000000 ≤ s.address.toNat + 0x20000 + 4 * s.wordCount) :
    FaultCause d source dir addresses .addOverflow

variable {d : Device} {source : ProgramSource} {dir : String} {addresses : AddressSource}

/-- The checks of columns, windows and alignment are none of the causes. -/
theorem FaultCause.fault_eq {f : Fault} (h : d.FaultCause source dir addresses f) :
    f = .arrayTooLarge ∨ f = .shiftOverflow ∨ f = .addOverflow := by
  cases h with
  | array => exact .inl rfl
  | select => exact .inr (.inl rfl)
  | transfer => exact .inr (.inr rfl)
  | program => exact .inr (.inr rfl)

theorem faultCause_onTile (hv : d.Valid) {c r : UInt8} (hd : Validation.Declared d c r)
    {f : TileId → Script}
    (h : ∀ t, d.locate c r = .ok t → 0 < t.column →
      Script.AllFaults (d.FaultCause source dir addresses) (f t)) :
    Script.AllFaults (d.FaultCause source dir addresses)
      (Script.onTile d.arrayOffset.toNat c.toNat r.toNat f) := by
  obtain ⟨x, hx, rfl, rfl⟩ := hd
  obtain ⟨t, ht, hc⟩ | ⟨ht, hoffset⟩ := locate_of_declared hv hx
  · rw [Script.onTile_eq ht]
    exact h t ht hc
  · unfold Script.onTile
    rw [← locate, ht]
    simpa using FaultCause.array hx hoffset

theorem faultCause_tileSteps (hv : d.Valid)
    (hlen : ∀ path image, source path = .ok image →
      ∀ s ∈ image.segments, s.data.length < 0x8000000000000000) :
    Script.AllFaults (d.FaultCause source dir addresses) (d.tileSteps source dir) := by
  rw [tileSteps, Script.allFaults_flatMap]
  intro x hx
  rw [Tile.setupSteps_eq]
  refine faultCause_onTile hv ⟨x, hx, rfl, rfl⟩ ?_
  intro t _ hc
  by_cases hk : x.kind = .compute
  · rw [Tile.stepsOn_compute hk, Script.allFaults_append]
    refine ⟨(completes_clearSteps hc _).allFaults, allFaults_loadSteps hc ?_⟩
    intro core hcore image himage s hs f hf
    obtain ⟨rfl, hexec, hle⟩ := Segment.verdict_eq_broken (hlen _ image himage s hs) hf
    exact .program hx hk hcore himage hs hexec hle
  · rw [Tile.stepsOn_shim hk]
    exact (completes_clearSteps hc _).allFaults

theorem faultCause_switchSteps (hv : d.Valid) :
    Script.AllFaults (d.FaultCause source dir addresses) d.switchSteps := by
  rw [switchSteps, Script.allFaults_flatMap]
  intro s hs
  have hs := (List.mem_filter.mp hs).1
  refine faultCause_onTile hv (hv.switchbox_declared s hs) ?_
  intro t ht hc
  simp only [Switchbox.steps, Script.allFaults_append, Script.allFaults_flatMap]
  refine ⟨⟨?_, ?_⟩, ?_⟩
  · intro c _
    exact (c.completes_steps hc).allFaults
  · intro m hm
    refine m.allFaults_steps hc ?_
    intro range hrange name hname a ha hmsel
    rw [TileId.isShim_of_at? ht] at hrange
    exact .select hs hm hrange hname ha hmsel
  · intro p _
    exact (p.completes_steps hc s).allFaults

theorem faultCause_muxSteps (hv : d.Valid) :
    Script.AllFaults (d.FaultCause source dir addresses) d.muxSteps := by
  rw [muxSteps, Script.allFaults_flatMap]
  intro m hm
  refine faultCause_onTile hv (hv.mux_declared m hm) ?_
  intro t _ hc
  rw [Script.allFaults_flatMap]
  intro c _
  exact (c.completes_muxSteps hc).allFaults

theorem faultCause_dmaSteps (hv : d.Valid) :
    Script.AllFaults (d.FaultCause source dir addresses) (d.dmaSteps addresses) := by
  rw [dmaSteps, Script.allFaults_flatMap]
  intro m hm
  refine faultCause_onTile hv (hv.memory m hm).declared ?_
  intro t _ hc
  refine m.allFaults_steps hc ?_
  intro b hb x hx base hbase hle
  exact .transfer hm hb hx hbase hle

/-- Every fault in the steps of a valid design, reached or not, has a cause. -/
theorem faultCause_script (hv : d.Valid)
    (hlen : ∀ path image, source path = .ok image →
      ∀ s ∈ image.segments, s.data.length < 0x8000000000000000) :
    Script.AllFaults (d.FaultCause source dir addresses) (d.script source dir addresses) := by
  simp only [script_eq, Script.allFaults_append]
  exact ⟨⟨faultCause_tileSteps hv hlen, faultCause_switchSteps hv, faultCause_muxSteps hv⟩,
    faultCause_dmaSteps hv⟩

theorem faultCause_of_compile (hv : d.Valid)
    (hlen : ∀ path image, source path = .ok image →
      ∀ s ∈ image.segments, s.data.length < 0x8000000000000000) {f : Fault}
    (h : d.compile source dir addresses = .error (.fault f)) :
    d.FaultCause source dir addresses f := by
  cases hs : (d.script source dir addresses).stop? with
  | none =>
    obtain ⟨r, hr⟩ := exists_report hv hs
    rw [h] at hr
    cases hr
  | some stop =>
    simp only [compile, configure, hs] at h
    cases h
    exact faultCause_script hv hlen f (Script.mem_of_stop? hs)

theorem compile_of_not_faultCause (hv : d.Valid)
    (hlen : ∀ path image, source path = .ok image →
      ∀ s ∈ image.segments, s.data.length < 0x8000000000000000)
    (hno : ∀ f, ¬ d.FaultCause source dir addresses f) :
    (∃ r, d.compile source dir addresses = .ok r) ∨
      ∃ e, d.compile source dir addresses = .error (.abort e) := by
  cases hc : d.compile source dir addresses with
  | ok r => exact .inl ⟨r, rfl⟩
  | error stop =>
    cases stop with
    | fault f => exact absurd (faultCause_of_compile hv hlen hc) (hno f)
    | abort e => exact .inr ⟨e, rfl⟩

/-- A run of a valid design ends in a fault for one of the causes only. Without them it has an image
or ends at a program that cannot be trusted. No other check can fail, no place of a slot or of a
descriptor is too large for its arithmetic, and that the sections are told from the log never
fails. -/
theorem compile_faults (hv : d.issues = [])
    (hlen : ∀ path image, source path = .ok image →
      ∀ s ∈ image.segments, s.data.length < 0x8000000000000000) :
    (∀ f, d.compile source dir addresses = .error (.fault f) →
      d.FaultCause source dir addresses f) ∧
    ((∀ f, ¬ d.FaultCause source dir addresses f) →
      (∃ r, d.compile source dir addresses = .ok r) ∨
        ∃ e, d.compile source dir addresses = .error (.abort e)) ∧
    (∀ f, .fault f ∈ d.script source dir addresses →
      f = .arrayTooLarge ∨ f = .shiftOverflow ∨ f = .addOverflow) ∧
    Script.AllWrites Write.PlaceFits (d.streamSteps ++ d.dmaSteps addresses) ∧
    ∀ log diags, d.configure source dir addresses = .ok (log, diags) →
      ∃ sections, log.sections = .ok sections := by
  have hvalid := valid_of_issues hv
  refine ⟨fun f => faultCause_of_compile hvalid hlen, compile_of_not_faultCause hvalid hlen,
    fun f hf => ?_, ?_, fun log diags hconf => ?_⟩
  · have hcause : d.FaultCause source dir addresses f := faultCause_script hvalid hlen f hf
    exact hcause.fault_eq
  · exact Script.allWrites_append.mpr ⟨d.placeFits_streamSteps, d.placeFits_dmaSteps addresses⟩
  · obtain ⟨hs, rfl, -⟩ := configure_eq_ok_iff.mp hconf
    exact exists_sections hvalid hs

def farArray : Device where
  schemaVersion := "1.0"
  name := "far"
  arrayOffset := 0x400000000
  tiles := [⟨1, 1, none, some ⟨none⟩⟩]
  buffers := []
  locks := []
  memories := []
  switchboxes := []
  shimMuxes := []

def farPrograms : ProgramSource := fun _ =>
  .ok ⟨[⟨0xFFFFFFFFFFFFFFFC, true, [1, 2, 3, 4]⟩]⟩

theorem farArray_faults :
    farArray.issues = [] ∧
    (∀ path image, farPrograms path = .ok image →
      ∀ s ∈ image.segments, s.data.length < 0x8000000000000000) ∧
    farArray.compile farPrograms "." farArray.addressOf? = .error (.fault .arrayTooLarge) ∧
    farArray.FaultCause farPrograms "." farArray.addressOf? .arrayTooLarge := by
  have hv : farArray.issues = [] := by decide +kernel
  have hlen : ∀ path image, farPrograms path = .ok image →
      ∀ s ∈ image.segments, s.data.length < 0x8000000000000000 := by
    intro path image h
    cases h
    decide
  have hc : farArray.compile farPrograms "." farArray.addressOf? =
      .error (.fault .arrayTooLarge) := rfl
  exact ⟨hv, hlen, hc, (compile_faults hv hlen).1 _ hc⟩

end Device
end ArrayImage
