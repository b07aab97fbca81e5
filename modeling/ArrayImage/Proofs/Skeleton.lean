import ArrayImage.Proofs.Layout
import ArrayImage.Proofs.Ports
import ArrayImage.Proofs.Programming

/-!
# ArrayImage.Proofs.Skeleton

Which addresses an image of a valid design holds.

The tile phase clears everything that the later phases write, the mux registers of shims excepted,
so the written addresses can be read off the declared tiles, the mux connects and the accepted
programs. When programs stay in cleared memory too, this fixes all sections of the image:
`Device.sectionRegions` lists them, tile by tile.
-/

namespace ArrayImage

open RegisterMap

/-! ## What is cleared for the later phases -/

theorem IsSwitchOffset.mem_computeRegions {o : Nat} (h : IsSwitchOffset false o) :
    ∃ r ∈ computeRegions, o ∈ r.words := by
  obtain ⟨p, hp, h⟩ := h
  simp only [Port.limit, Bool.false_eq_true, if_false] at hp
  rcases h with rfl | rfl | ⟨k, hk, rfl⟩
  · refine ⟨computeMasters, by simp [computeRegions], Region.mem_words.mpr ⟨p, ?_, rfl⟩⟩
    simp only [computeMasters]
    omega
  · refine ⟨computeSlaves, by simp [computeRegions], Region.mem_words.mpr ⟨p, ?_, rfl⟩⟩
    simp only [computeSlaves]
    omega
  · simp only [slotsPerPort] at hk
    refine ⟨computeSlots, by simp [computeRegions], Region.mem_words.mpr ⟨4 * p + k, ?_, ?_⟩⟩
    · simp only [computeSlots]
      omega
    · simp only [slotOffset, computeSlots]
      omega

theorem IsSwitchOffset.mem_shimRegions {o : Nat} (h : IsSwitchOffset true o) (network : Bool) :
    ∃ r ∈ shimRegions network, o ∈ r.words := by
  obtain ⟨p, hp, h⟩ := h
  simp only [Port.limit, if_true] at hp
  rcases h with rfl | rfl | ⟨k, hk, rfl⟩
  · refine ⟨shimMasters, by simp [shimRegions], Region.mem_words.mpr ⟨p, ?_, rfl⟩⟩
    simp only [shimMasters]
    omega
  · refine ⟨shimSlaves, by simp [shimRegions], Region.mem_words.mpr ⟨p, ?_, rfl⟩⟩
    simp only [shimSlaves]
    omega
  · simp only [slotsPerPort] at hk
    refine ⟨shimSlots, by simp [shimRegions], Region.mem_words.mpr ⟨4 * p + k, ?_, ?_⟩⟩
    · simp only [shimSlots]
      omega
    · simp only [slotOffset, shimSlots]
      omega

theorem IsDescriptorOffset.mem_computeRegions {o : Nat} (h : IsDescriptorOffset o) :
    ∃ r ∈ computeRegions, o ∈ r.words := by
  obtain ⟨i, hi, k, hk, rfl⟩ := h
  simp only [descriptorCount] at hi
  refine ⟨descriptors, by simp [computeRegions], Region.mem_words.mpr ⟨8 * i + k, ?_, ?_⟩⟩
  · simp only [descriptors, descriptorCount]
    omega
  · simp only [descriptorOffset, descriptors]
    omega

theorem IsChannelOffset.mem_computeRegions {o : Nat} (h : IsChannelOffset o) :
    ∃ r ∈ computeRegions, o ∈ r.words := by
  obtain ⟨direction, c, hc, h⟩ := h
  rw [queueOffset_eq, controlOffset_eq] at h
  simp only [channelCount] at hc
  cases direction with
  | s2mm =>
    refine ⟨s2mmChannels, by simp [computeRegions], Region.mem_words.mpr ⟨(o - 0x1DE00) / 4, ?_, ?_⟩⟩
      <;> simp only [s2mmChannels, channelCount] at h ⊢ <;> omega
  | mm2s =>
    refine ⟨mm2sChannels, by simp [computeRegions], Region.mem_words.mpr ⟨(o - 0x1DE10) / 4, ?_, ?_⟩⟩
      <;> simp only [mm2sChannels, channelCount] at h ⊢ <;> omega

namespace Device

variable {d : Device} {source : ProgramSource} {dir : String} {addresses : AddressSource}

theorem cleared_of_route (hv : d.Valid) {w : Write} (hw : .write w ∈ d.switchSteps) :
    d.ComputeWord w.address ∨ d.ShimWord w.address := by
  have hroute := (d.isRoute_switchSteps w hw).1
  obtain ⟨s, hs, hw⟩ := List.mem_flatMap.mp hw
  unfold Script.onTile at hw
  cases ht : TileId.at? d.arrayOffset.toNat s.column.toNat s.row.toNat with
  | error f => simp [ht] at hw
  | ok t =>
    simp only [ht] at hw
    have htile : w.register.tile = t := s.isOn_steps t _ hw _ rfl
    obtain ⟨x, hx, hcol, hrow⟩ := hv.switchbox_declared s (List.mem_filter.mp hs).1
    have hloc : d.locate x.column x.row = .ok t := by rw [locate, hcol, hrow, ht]
    have hshim := TileId.isShim_of_at? ht
    rw [htile] at hroute
    rw [Write.address, Register.address, htile]
    by_cases hk : x.kind = .compute
    · have hne := (hv.tile_kind x hx).mp hk
      rw [hshim, beq_eq_false_iff_ne.mpr (hrow ▸ hne)] at hroute
      obtain ⟨r, hr, ho⟩ := hroute.mem_computeRegions
      exact .inl ⟨x, hx, hk, t, hloc, r, hr, _, ho, rfl⟩
    · have hzero : s.row = 0 := by
        rw [← hrow]
        exact Decidable.byContradiction fun h => hk ((hv.tile_kind x hx).mpr h)
      rw [hshim, beq_iff_eq.mpr hzero] at hroute
      obtain ⟨r, hr, ho⟩ := hroute.mem_shimRegions (x.kind == .shimNoc)
      exact .inr ⟨x, hx, hk, t, hloc, r, hr, _, ho, rfl⟩

theorem cleared_of_dma (hv : d.Valid) {w : Write} (hw : .write w ∈ d.dmaSteps addresses) :
    d.ComputeWord w.address := by
  obtain ⟨hne, hplace⟩ := writes_dmaSteps hw
  obtain ⟨m, hm⟩ := List.exists_mem_of_ne_nil _ hne
  obtain ⟨hmem, hat⟩ := List.mem_filter.mp hm
  have hmv := hv.memory m hmem
  obtain ⟨x, hx, hcol, hrow⟩ := hmv.declared
  have hk : x.kind = .compute := (hv.tile_kind x hx).mpr (hrow ▸ hmv.row_ne)
  have hloc : d.locate x.column x.row = .ok w.register.tile := by
    rw [locate, hcol, hrow]
    exact TileId.isAt_iff.mp hat
  have hregion : ∃ r ∈ computeRegions, w.register.offset ∈ r.words :=
    hplace.elim (fun h => h.1.mem_computeRegions) fun h => h.1.mem_computeRegions
  obtain ⟨r, hr, ho⟩ := hregion
  exact ⟨x, hx, hk, _, hloc, r, hr, _, ho, rfl⟩

def MuxWord (d : Device) (a : Nat) : Prop :=
  ∃ m ∈ d.shimMuxes, ∃ t, d.locate m.column m.row = .ok t ∧
    ∃ c ∈ m.connects, ∃ o bits, c.muxBits = .ok (some (o, bits)) ∧ a = t.address o

theorem touches_muxSteps (hs : d.muxSteps.Completes) {a : Nat} :
    d.muxSteps.Touches a ↔ d.MuxWord a := by
  rw [muxSteps, Script.touches_flatMap]
  refine exists_congr fun m => and_congr_right fun hm => ?_
  rw [Script.touches_onTile]
  refine exists_congr fun t => and_congr_right fun ht => ?_
  rw [Script.touches_flatMap]
  refine exists_congr fun c => and_congr_right fun hc => ?_
  have hcs : (c.muxSteps t).Completes := by
    have h := Script.completes_flatMap.mp hs m hm
    rw [Script.onTile_eq ht] at h
    exact Script.completes_flatMap.mp h c hc
  unfold Connect.muxSteps at hcs ⊢
  cases hb : c.muxBits with
  | error e => simp [Script.Touches]
  | ok bits =>
    cases bits with
    | none => simp
    | some p =>
      obtain ⟨o, bits⟩ := p
      simp only [hb] at hcs ⊢
      have h := Script.touches_map_put (l := [()]) (o := fun _ => o) (u := fun _ => .raise bits)
        hcs (a := a)
      simpa using h

/-- The addresses that a run of a valid design writes. -/
theorem touches_script (hv : d.Valid) (hs : (d.script source dir addresses).Completes) {a : Nat} :
    (d.script source dir addresses).Touches a ↔
      d.ComputeWord a ∨ d.ShimWord a ∨ d.MuxWord a ∨ d.ProgramWord source dir a := by
  rw [script_eq] at hs ⊢
  simp only [Script.completes_append] at hs
  obtain ⟨⟨ht, -, hm⟩, -⟩ := hs
  simp only [Script.touches_append]
  rw [touches_tileSteps ht, touches_muxSteps hm]
  constructor
  · rintro (((h | h | h) | (⟨w, hw, rfl⟩ | h)) | ⟨w, hw, rfl⟩)
    · exact .inl h
    · exact .inr (.inl h)
    · exact .inr (.inr (.inr h))
    · exact (cleared_of_route hv hw).imp id .inl
    · exact .inr (.inr (.inl h))
    · exact .inl (cleared_of_dma hv hw)
  · rintro (h | h | h | h)
    · exact .inl (.inl (.inl h))
    · exact .inl (.inl (.inr (.inl h)))
    · exact .inl (.inr (.inr h))
    · exact .inl (.inl (.inr (.inr h)))

/-! ## Sections -/

theorem address_of_locate {x : Tile} {t : TileId} (h : d.locate x.column x.row = .ok t) {o : Nat}
    (ho : o < 0x40000) : t.address o = x.windowBase d.arrayOffset + o := by
  obtain ⟨ha, hc, hr⟩ := TileId.at?_eq_ok h
  rw [TileId.address, ha, hc, hr, windowSize_eq, Nat.mod_eq_of_lt ho, Tile.windowBase]

theorem bound_of_mem_tileSections {x : Tile} {o : Nat}
    (h : ∃ r ∈ d.tileSections x, o ∈ r.words) : o + 4 < 0x40000 := by
  obtain ⟨r, hr, ho⟩ := h
  exact Nat.lt_of_le_of_lt (Region.bounds_of_mem_words ho).2 ((d.tileSections_spaced x).1 r hr).2

theorem lt_of_mem_tileSections {x : Tile} {o : Nat} (h : ∃ r ∈ d.tileSections x, o ∈ r.words) :
    o < 0x40000 :=
  Nat.lt_of_add_right_lt (bound_of_mem_tileSections h)

theorem exists_locate (hs : (d.tileSteps source dir).Completes) {x : Tile} (hx : x ∈ d.tiles) :
    ∃ t, d.locate x.column x.row = .ok t := by
  have h := Script.completes_flatMap.mp hs x hx
  rw [Tile.setupSteps_eq] at h
  obtain ⟨t, ht, -⟩ := Script.completes_onTile.mp h
  exact ⟨t, ht⟩

/-- Without programs outside cleared memory, the sections hold what is written. -/
theorem mem_sectionRegions_iff (hv : d.Valid) (hs : (d.tileSteps source dir).Completes) {a : Nat} :
    a ∈ d.sectionRegions.flatMap Region.words ↔ d.ComputeWord a ∨ d.ShimWord a ∨ d.MuxWord a := by
  rw [mem_sectionRegions]
  constructor
  · rintro ⟨x, hx, o, ho, rfl⟩
    obtain ⟨t, ht⟩ := exists_locate hs hx
    rw [← address_of_locate ht (lt_of_mem_tileSections ho)]
    by_cases hk : x.kind = .compute
    · rw [tileSections_compute hk, mem_computeSections] at ho
      obtain ⟨r, hr, ho⟩ := ho
      exact .inl ⟨x, hx, hk, t, ht, r, hr, o, ho, rfl⟩
    · rw [tileSections_shim hk, mem_shimSections] at ho
      have hmux : ∀ register, d.needsMux x register = true → d.MuxWord (t.address register) := by
        intro register h
        obtain ⟨m, hm, hc, hr, c, hcm, bits, hb⟩ := needsMux_iff.mp h
        exact ⟨m, hm, t, by rw [hc, hr, ht], c, hcm, register, bits, hb, rfl⟩
      rcases ho with ⟨r, hr, ho⟩ | ⟨hn, rfl⟩ | ⟨hn, rfl⟩
      · exact .inr (.inl ⟨x, hx, hk, t, ht, r, hr, o, ho, rfl⟩)
      · exact .inr (.inr (hmux _ hn))
      · exact .inr (.inr (hmux _ hn))
  · rintro (⟨x, hx, hk, t, ht, r, hr, o, ho, rfl⟩ | ⟨x, hx, hk, t, ht, r, hr, o, ho, rfl⟩ |
      ⟨m, hm, t, ht, c, hc, o, bits, hb, rfl⟩)
    · have hsec : ∃ r ∈ d.tileSections x, o ∈ r.words := by
        rw [tileSections_compute hk, mem_computeSections]
        exact ⟨r, hr, ho⟩
      exact ⟨x, hx, o, hsec, address_of_locate ht (lt_of_mem_tileSections hsec)⟩
    · have hsec : ∃ r ∈ d.tileSections x, o ∈ r.words := by
        rw [tileSections_shim hk, mem_shimSections]
        exact .inl ⟨r, hr, ho⟩
      exact ⟨x, hx, o, hsec, address_of_locate ht (lt_of_mem_tileSections hsec)⟩
    · obtain ⟨x, hx, hcol, hrow⟩ := hv.mux_declared m hm
      have hk : x.kind ≠ .compute := fun hk =>
        (hv.tile_kind x hx).mp hk (hrow.trans (hv.mux_row m hm))
      have hneed : d.needsMux x o = true :=
        needsMux_iff.mpr ⟨m, hm, hcol.symm, hrow.symm, c, hc, bits, hb⟩
      have hsec : ∃ r ∈ d.tileSections x, o ∈ r.words := by
        rw [tileSections_shim hk, mem_shimSections]
        rcases Connect.muxBits_offset hb with rfl | rfl
        · exact .inr (.inl ⟨hneed, rfl⟩)
        · exact .inr (.inr ⟨hneed, rfl⟩)
      exact ⟨x, hx, o, hsec,
        address_of_locate (by rw [hcol, hrow, ht]) (lt_of_mem_tileSections hsec)⟩

/-- Which addresses the image of a design holds, and how its sections lie. -/
structure Skeleton (d : Device) (source : ProgramSource) (dir : String) (addresses : AddressSource)
    (log : WriteLog) (sections : List Section) : Prop where
  /-- The addresses are those that are cleared, mux registers that are needed, and programs. -/
  addresses_iff : ∀ a, (log.get? a).isSome ↔
    d.ComputeWord a ∨ d.ShimWord a ∨ d.MuxWord a ∨ d.ProgramWord source dir a
  /-- No item of a switchbox writes an address that is not cleared. -/
  routed : ∀ w, .write w ∈ d.switchSteps → d.ComputeWord w.address ∨ d.ShimWord w.address
  /-- No descriptor and no channel start writes an address that is not cleared. -/
  programmed : ∀ w, .write w ∈ d.dmaSteps addresses → d.ComputeWord w.address
  /-- When programs stay in cleared memory, the sections follow from the tiles and the muxes. -/
  sections : (∀ a, d.ProgramWord source dir a → d.ComputeWord a) →
    sections.map Section.region = d.sectionRegions

/-- Every image of a valid design has the skeleton of the design. -/
theorem compile_skeleton {r : Report} (hv : d.issues = [])
    (hc : d.compile source dir addresses = .ok r) :
    ∃ log, d.configure source dir addresses = .ok (log, r.diagnostics) ∧
      d.Skeleton source dir addresses log r.sections := by
  have hvalid := valid_of_issues hv
  obtain ⟨log, hconf, hsec⟩ := configure_of_compile hc
  obtain ⟨hs, rfl, -⟩ := configure_eq_ok_iff.mp hconf
  have haddr : ∀ a, (((d.script source dir addresses).applyTo .empty).get? a).isSome ↔
      d.ComputeWord a ∨ d.ShimWord a ∨ d.MuxWord a ∨ d.ProgramWord source dir a := by
    intro a
    rw [Script.isSome_get?_applyTo hs, touches_script hvalid hs]
    simp
  refine ⟨_, hconf, haddr, fun w hw => cleared_of_route hvalid hw,
    fun w hw => cleared_of_dma hvalid hw, fun hprog => ?_⟩
  refine WriteLog.region_sections hsec (whole_sectionRegions d) (spaced_sectionRegions hvalid)
    fun a => ?_
  rw [haddr, mem_sectionRegions_iff hvalid (completes_tileSteps_of_script hs)]
  constructor
  · rintro (h | h | h | h)
    · exact .inl h
    · exact .inr (.inl h)
    · exact .inr (.inr h)
    · exact .inl (hprog a h)
  · rintro (h | h | h)
    · exact .inl h
    · exact .inr (.inl h)
    · exact .inr (.inr (.inl h))

/-- All that a run of a valid design writes is inside windows, so the log has sections. -/
theorem exists_sections (hv : d.Valid) (hs : (d.script source dir addresses).Completes) :
    ∃ sections, ((d.script source dir addresses).applyTo .empty).sections = .ok sections := by
  have hregion : ∀ k : TileKind, ∀ r ∈ k.resetRegions, ∀ o ∈ r.words, o + 4 ≤ windowSize :=
    fun k r hr o ho =>
      Nat.le_trans (Region.bounds_of_mem_words ho).2 (k.resetRegions_bounds r hr).2.2
  refine ⟨_, WriteLog.sections_eq_group fun a ha => ?_⟩
  rw [Script.isSome_get?_applyTo hs, touches_script hv hs] at ha
  rcases ha with ha | ⟨x, -, -, t, -, r, hr, o, ho, rfl⟩ | ⟨x, -, hk, t, -, r, hr, o, ho, rfl⟩ |
    ⟨m, -, t, -, c, -, o, bits, hb, rfl⟩ | ⟨x, -, -, t, -, o, hplaces, rfl⟩
  · simp at ha
  · exact t.address_le (hregion .compute r hr o ho)
  · rw [← resetRegions_of_ne_compute hk] at hr
    exact t.address_le (hregion x.kind r hr o ho)
  · refine t.address_le ?_
    rcases Connect.muxBits_offset hb with rfl | rfl <;> decide
  · obtain ⟨core, -, image, -, hfits, s, hmem, hs⟩ := hplaces
    exact t.address_le (hs.bound (ProgramImage.verdict_eq_fits hfits s hmem))

/-- A run of a valid design that does not end early has an image. -/
theorem exists_report (hv : d.Valid) (hs : (d.script source dir addresses).Completes) :
    ∃ r, d.compile source dir addresses = .ok r := by
  obtain ⟨sections, hsec⟩ := exists_sections hv hs
  have hconf := configure_eq_ok_iff.mpr ⟨hs, rfl, rfl⟩
  rw [compile, hconf]
  simp only [hsec]
  exact ⟨_, rfl⟩

def mixedTiles : Device where
  schemaVersion := "1.0"
  name := "mixed"
  arrayOffset := 1
  tiles := [⟨4, 0, none, none⟩, ⟨3, 1, none, none⟩, ⟨3, 0, none, none⟩]
  buffers := [⟨"in", 3, 1, some 0x1000, 32⟩]
  locks := []
  memories :=
    [⟨3, 1, [⟨"fill", [⟨"in", .a, 0, 16⟩], [], none, some "fill"⟩], [⟨.s2mm, 0, "fill"⟩]⟩]
  switchboxes :=
    [⟨3, 0, [⟨⟨.south, 3⟩, ⟨.north, 0⟩⟩], [], [], []⟩,
      ⟨3, 1, [⟨⟨.south, 0⟩, ⟨.dma, 0⟩⟩], [], [], []⟩]
  shimMuxes := [⟨3, 0, [⟨⟨.dma, 0⟩, ⟨.north, 3⟩⟩]⟩]

theorem mixedTiles_skeleton : ∃ r log,
    mixedTiles.issues = [] ∧
    mixedTiles.compile (fun path => .error (.unreadable path)) "." mixedTiles.addressOf? = .ok r ∧
    mixedTiles.configure (fun path => .error (.unreadable path)) "." mixedTiles.addressOf? =
      .ok (log, r.diagnostics) ∧
    mixedTiles.Skeleton (fun path => .error (.unreadable path)) "." mixedTiles.addressOf? log
      r.sections := by
  have hv : mixedTiles.issues = [] := by decide +kernel
  have hvalid := valid_of_issues hv
  have hcore : ∀ x ∈ mixedTiles.tiles, x.core = none := by simp [mixedTiles]
  have hs : (mixedTiles.script (fun path => .error (.unreadable path)) "."
      mixedTiles.addressOf?).Completes := by
    rw [script_eq, Script.completes_append, Script.completes_append, ← streamSteps_eq]
    refine ⟨⟨completes_tileSteps hvalid (by decide) hcore, ?_⟩, ?_⟩
    · rw [Script.Completes]
      decide +kernel
    · rw [Script.Completes]
      decide +kernel
  obtain ⟨r, hc⟩ := exists_report hvalid hs
  obtain ⟨log, hconf, hskel⟩ := compile_skeleton hv hc
  exact ⟨r, log, hv, hc, hconf, hskel⟩

/-- The only mux register that is needed stands between the two halves of its shim. -/
example : mixedTiles.tileSections ⟨3, 0, none, none⟩ =
    [⟨0x1D000, 0x140⟩, ⟨0x1F000, 4⟩, ⟨0x3F000, 0x5C⟩, ⟨0x3F100, 0x60⟩, ⟨0x3F200, 0x180⟩] :=
  rfl

end Device
end ArrayImage
