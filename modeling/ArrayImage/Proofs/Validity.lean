import ArrayImage.Proofs.Acceptance

/-!
# ArrayImage.Proofs.Validity

What the phases need of the rules of a valid design. `Device.Valid` is about tiles and about what sits
on them (`valid_of_issues`); blocks and switchboxes have rules of their own (`DmaBlock.Valid`,
`Switchbox.Valid`), with names as they are looked up.
-/

namespace ArrayImage

open Validation

structure MemoryDma.Valid (d : Device) (m : MemoryDma) : Prop where
  declared : Declared d m.column m.row
  row_ne : m.row ≠ 0
  labels_nodup : (labels m).Nodup
  descriptors_le : descriptorBlocks m ≤ 16
  channel_le : ∀ s ∈ m.starts, s.channel ≤ 1

/-- The rules of a valid design. -/
structure Device.Valid (d : Device) : Prop where
  tile_range : ∀ x ∈ d.tiles, x.column ≤ 127 ∧ x.row ≤ 31
  tile_column_ne : ∀ x ∈ d.tiles, x.column ≠ 0
  tile_kind : ∀ x ∈ d.tiles, x.kind = .compute ↔ x.row ≠ 0
  tiles_nodup : (d.tiles.map place).Nodup
  switchbox_declared : ∀ s ∈ d.switchboxes, Declared d s.column s.row
  mux_declared : ∀ m ∈ d.shimMuxes, Declared d m.column m.row
  mux_row : ∀ m ∈ d.shimMuxes, m.row = 0
  memory : ∀ m ∈ d.memories, m.Valid d

theorem Device.valid_of_issues {d : Device} (h : d.issues = []) : d.Valid := by
  have hw := issues_eq_nil_iff.mp h
  have hmemory : ∀ m ∈ d.memories, m.Valid d := by
    intro m hm
    obtain ⟨hdeclared, hrow, hlabels, hcount, -, -, hchannel⟩ := hw.memories m hm
    exact ⟨hdeclared, hrow, hlabels, hcount, hchannel⟩
  exact ⟨hw.tile_range, hw.tile_column_ne, hw.tile_kind, hw.tiles_nodup, hw.switchbox_tiles,
    hw.mux_tiles, hw.mux_row, hmemory⟩

/-! ## Blocks and switchboxes -/

/-- The rules of a block of a DMA program that only look at the block and the locks. -/
structure DmaBlock.Valid (d : Device) (b : DmaBlock) : Prop where
  slots_nodup : (b.transfers.map Transfer.slot).Nodup
  locks_known : ∀ u ∈ b.locks, (d.lock? u.lock).isSome

theorem Device.block_valid {d : Device} (h : d.issues = []) {m : MemoryDma} (hm : m ∈ d.memories)
    {b : DmaBlock} (hb : b ∈ m.blocks) : b.Valid d := by
  have hw := ((issues_eq_nil_iff.mp h).memories m hm).blocks b hb
  exact ⟨hw.slots_nodup, fun u hu => isSome_find?_name.mpr (hw.locks_known u hu)⟩

structure Switchbox.Valid (s : Switchbox) : Prop where
  source_inRange : ∀ c ∈ s.connects, c.source.InRange .slave (s.row == 0)
  dest_inRange : ∀ c ∈ s.connects, c.dest.InRange .master (s.row == 0)
  master_inRange : ∀ m ∈ s.masterSets, m.dest.InRange .master (s.row == 0)
  amsels_ne_nil : ∀ m ∈ s.masterSets, m.amsels ≠ []
  amsels_known : ∀ m ∈ s.masterSets, ∀ name ∈ m.amsels, (s.amsel? name).isSome
  table_inRange : ∀ p ∈ s.packetTables, p.source.InRange .slave (s.row == 0)
  rules_known : ∀ p ∈ s.packetTables, ∀ r ∈ p.rules, (s.amsel? r.amsel).isSome

theorem Device.switchbox_valid {d : Device} (h : d.issues = []) {s : Switchbox}
    (hs : s ∈ d.switchboxes) : s.Valid := by
  have hw := (issues_eq_nil_iff.mp h).switchboxes s hs
  exact {
    source_inRange := hw.sources
    dest_inRange := hw.dests
    master_inRange := hw.masters
    amsels_ne_nil := hw.amsels_ne_nil
    amsels_known := fun m hm name hn => isSome_find?_name.mpr (hw.amsels_known m hm name hn)
    table_inRange := hw.tables
    rules_known := fun p hp r hr => isSome_find?_name.mpr (hw.rules_known p hp r hr) }

end ArrayImage
