import ArrayImage.Validation

/-!
# ArrayImage.Proofs.Rules

The rules of a design, and the ways to break them, stated without the validator.

`Device.WellFormed` says what a design has to keep. `Device.Breaks` has one case for each way not to
keep it, with the place where it happens and the issue that it is: a place is the number of a part of
the description, then that of an item in it, and so on down to the rule, in the order in which a
description is read. A design is well-formed when nothing is broken (`wellFormed_iff`).
-/

namespace ArrayImage

def Validation.Declared (d : Device) (column row : UInt8) : Prop :=
  ∃ x ∈ d.tiles, x.column = column ∧ x.row = row

/-- A port is not past the end of its bundle. A bundle that the switch does not have has no end. -/
def Port.InRange (p : Port) (side : Side) (shim : Bool) : Prop :=
  ∀ range, p.bundle.ports side shim = some range → p.index.toNat < range.count

open Validation

/-- An item before the `i`-th one has the same key. -/
def Repeats {α β : Type} (key : α → β) (l : List α) (i : Nat) (x : α) : Prop :=
  ∃ j < i, ∃ y, l[j]? = some y ∧ key y = key x

theorem nodup_iff_not_repeats {α β : Type} {key : α → β} {l : List α} :
    (l.map key).Nodup ↔ ∀ (i : Nat) (x : α), l[i]? = some x → ¬ Repeats key l i x := by
  rw [List.nodup_iff_pairwise_ne, List.pairwise_map, List.pairwise_iff_getElem]
  constructor
  · rintro h i x hx ⟨j, hj, y, hy, hkey⟩
    obtain ⟨hi, rfl⟩ := List.getElem?_eq_some_iff.mp hx
    obtain ⟨hjl, rfl⟩ := List.getElem?_eq_some_iff.mp hy
    exact h j i hjl hi hj hkey
  · intro h i j hi hj hij hkey
    exact h j _ (List.getElem?_eq_getElem hj) ⟨i, hij, _, List.getElem?_eq_getElem hi, hkey⟩

/-! ## Tiles -/

/-- The ways in which the `i`-th tile of a design breaks a rule. -/
inductive Tile.Breaks (d : Device) (i : Nat) (x : Tile) : List Nat → Issue → Prop where
  | range (out : ¬ (x.column ≤ 127 ∧ x.row ≤ 31)) :
    Breaks d i x [0] (.tileOutOfRange ⟨x.column, x.row⟩)
  | column (zero : x.column = 0) : Breaks d i x [1] (.columnZero ⟨x.column, x.row⟩)
  | place (twice : Repeats Validation.place d.tiles i x) :
    Breaks d i x [2] (.duplicateTile ⟨x.column, x.row⟩)
  | kind (other : ¬ (x.kind = .compute ↔ x.row ≠ 0)) :
    Breaks d i x [3] (.kindMismatch ⟨x.column, x.row⟩ x.kind)

/-! ## DMA programs -/

structure DmaBlock.WellFormed (d : Device) (m : MemoryDma) (b : DmaBlock) : Prop where
  next_known : ∀ target, b.next = some target → target ∈ labels m
  buffers_known : ∀ t ∈ b.transfers, ∃ x ∈ d.buffers, x.name = t.buffer
  slots_nodup : (b.transfers.map Transfer.slot).Nodup
  locks_known : ∀ u ∈ b.locks, ∃ l ∈ d.locks, l.name = u.lock
  one_lock : ∀ u ∈ b.locks, ∀ v ∈ b.locks, u.lock = v.lock

structure MemoryDma.WellFormed (d : Device) (m : MemoryDma) : Prop where
  declared : Declared d m.column m.row
  row_ne : m.row ≠ 0
  labels_nodup : (labels m).Nodup
  descriptors_le : descriptorBlocks m ≤ 16
  blocks : ∀ b ∈ m.blocks, b.WellFormed d m
  starts_known : ∀ s ∈ m.starts, s.block ∈ labels m
  channel_le : ∀ s ∈ m.starts, s.channel ≤ 1

section Memory

variable (d : Device) (m : MemoryDma)

inductive DmaBlock.Breaks (b : DmaBlock) : List Nat → Issue → Prop where
  | next {target : String} (next_eq : b.next = some target) (unknown : target ∉ labels m) :
    Breaks b [0] (.unknownBlock ⟨m.column, m.row⟩ b.label target)
  | buffer {i : Nat} {t : Transfer} (item : b.transfers[i]? = some t)
    (unknown : ¬ ∃ x ∈ d.buffers, x.name = t.buffer) :
    Breaks b [1, i, 0] (.unknownBuffer ⟨m.column, m.row⟩ b.label t.buffer)
  | slot {i : Nat} {t : Transfer} (item : b.transfers[i]? = some t)
    (twice : Repeats Transfer.slot b.transfers i t) :
    Breaks b [1, i, 1] (.duplicateSlot ⟨m.column, m.row⟩ b.label t.slot)
  | lock {i : Nat} {u : LockUse} (item : b.locks[i]? = some u)
    (unknown : ¬ ∃ l ∈ d.locks, l.name = u.lock) :
    Breaks b [2, i] (.unknownLock ⟨m.column, m.row⟩ b.label u.lock)
  | locks (other : ¬ ∀ u ∈ b.locks, ∀ v ∈ b.locks, u.lock = v.lock) :
    Breaks b [3] (.mixedLocks ⟨m.column, m.row⟩ b.label)

inductive MemoryDma.Breaks : List Nat → Issue → Prop where
  | tile (undeclared : ¬ Declared d m.column m.row) :
    Breaks [0] (.undeclaredTile .memory ⟨m.column, m.row⟩)
  | row (shim : m.row = 0) : Breaks [1] (.memoryOnShim ⟨m.column, m.row⟩)
  | label {i : Nat} {b : DmaBlock} (item : m.blocks[i]? = some b)
    (twice : Repeats DmaBlock.label m.blocks i b) :
    Breaks [2, i] (.duplicateLabel ⟨m.column, m.row⟩ b.label)
  | count (above : 16 < descriptorBlocks m) :
    Breaks [3] (.tooManyDescriptors ⟨m.column, m.row⟩ (descriptorBlocks m))
  | block {i : Nat} {b : DmaBlock} {k : List Nat} {e : Issue} (item : m.blocks[i]? = some b)
    (breaks : b.Breaks d m k e) : Breaks (4 :: i :: k) e
  | start {i : Nat} {s : ChannelStart} (item : m.starts[i]? = some s)
    (unknown : s.block ∉ labels m) :
    Breaks [5, i, 0]
      (.unknownBlock ⟨m.column, m.row⟩ (s!"{s.direction.name}{s.channel}") s.block)
  | channel {i : Nat} {s : ChannelStart} (item : m.starts[i]? = some s) (above : 1 < s.channel) :
    Breaks [5, i, 1] (.noSuchChannel ⟨m.column, m.row⟩ s.channel)

end Memory

/-! ## Switchboxes -/

/-- The rules of a switchbox, but for its tile. -/
structure Switchbox.WellFormed (s : Switchbox) : Prop where
  sources : ∀ c ∈ s.connects, c.source.InRange .slave (s.row == 0)
  dests : ∀ c ∈ s.connects, c.dest.InRange .master (s.row == 0)
  masters : ∀ m ∈ s.masterSets, m.dest.InRange .master (s.row == 0)
  amsels_ne_nil : ∀ m ∈ s.masterSets, m.amsels ≠ []
  amsels_known : ∀ m ∈ s.masterSets, ∀ name ∈ m.amsels, ∃ a ∈ s.amsels, a.name = name
  tables : ∀ p ∈ s.packetTables, p.source.InRange .slave (s.row == 0)
  rules_known : ∀ p ∈ s.packetTables, ∀ r ∈ p.rules, ∃ a ∈ s.amsels, a.name = r.amsel

inductive Switchbox.Breaks (s : Switchbox) : List Nat → Issue → Prop where
  | source {i : Nat} {c : Connect} (item : s.connects[i]? = some c)
    (out : ¬ c.source.InRange .slave (s.row == 0)) :
    Breaks s [0, i, 0] (.portIndex ⟨s.column, s.row⟩ c.source .slave)
  | dest {i : Nat} {c : Connect} (item : s.connects[i]? = some c)
    (out : ¬ c.dest.InRange .master (s.row == 0)) :
    Breaks s [0, i, 1] (.portIndex ⟨s.column, s.row⟩ c.dest .master)
  | master {i : Nat} {m : MasterSet} (item : s.masterSets[i]? = some m)
    (out : ¬ m.dest.InRange .master (s.row == 0)) :
    Breaks s [1, i, 0] (.portIndex ⟨s.column, s.row⟩ m.dest .master)
  | empty {i : Nat} {m : MasterSet} (item : s.masterSets[i]? = some m) (none : m.amsels = []) :
    Breaks s [1, i, 1] (.emptyMasterSet ⟨s.column, s.row⟩)
  | amsel {i j : Nat} {m : MasterSet} {name : String} (item : s.masterSets[i]? = some m)
    (amsel : m.amsels[j]? = some name) (unknown : ¬ ∃ a ∈ s.amsels, a.name = name) :
    Breaks s [1, i, 2, j] (.unknownAmsel ⟨s.column, s.row⟩ name)
  | table {i : Nat} {p : PacketTable} (item : s.packetTables[i]? = some p)
    (out : ¬ p.source.InRange .slave (s.row == 0)) :
    Breaks s [2, i, 0] (.portIndex ⟨s.column, s.row⟩ p.source .slave)
  | rule {i j : Nat} {p : PacketTable} {r : PacketRule} (item : s.packetTables[i]? = some p)
    (rule : p.rules[j]? = some r) (unknown : ¬ ∃ a ∈ s.amsels, a.name = r.amsel) :
    Breaks s [2, i, 1, j] (.unknownAmsel ⟨s.column, s.row⟩ r.amsel)

/-! ## Designs -/

namespace Device

/-- The rules of a design. -/
structure WellFormed (d : Device) : Prop where
  version : d.schemaVersion = "1.0"
  tile_column_ne : ∀ x ∈ d.tiles, x.column ≠ 0
  tile_range : ∀ x ∈ d.tiles, x.column ≤ 127 ∧ x.row ≤ 31
  tile_kind : ∀ x ∈ d.tiles, x.kind = .compute ↔ x.row ≠ 0
  tiles_nodup : (d.tiles.map place).Nodup
  buffers : ∀ b ∈ d.buffers, Declared d b.column b.row
  locks : ∀ l ∈ d.locks, Declared d l.column l.row
  lock_ids : ∀ l ∈ d.locks, l.id ≤ 15
  switchbox_tiles : ∀ s ∈ d.switchboxes, Declared d s.column s.row
  switchboxes : ∀ s ∈ d.switchboxes, s.WellFormed
  mux_tiles : ∀ m ∈ d.shimMuxes, Declared d m.column m.row
  mux_row : ∀ m ∈ d.shimMuxes, m.row = 0
  memories : ∀ m ∈ d.memories, m.WellFormed d

/-- The ways in which a design breaks a rule. -/
inductive Breaks (d : Device) : List Nat → Issue → Prop where
  | version (other : d.schemaVersion ≠ "1.0") : Breaks d [0] (.schemaVersion d.schemaVersion)
  | tile {i : Nat} {x : Tile} {k : List Nat} {e : Issue} (item : d.tiles[i]? = some x)
    (breaks : x.Breaks d i k e) : Breaks d (1 :: i :: k) e
  | buffer {i : Nat} {b : Buffer} (item : d.buffers[i]? = some b)
    (undeclared : ¬ Declared d b.column b.row) :
    Breaks d [2, i] (.undeclaredTile (.buffer b.name) ⟨b.column, b.row⟩)
  | lock {i : Nat} {l : Lock} (item : d.locks[i]? = some l)
    (undeclared : ¬ Declared d l.column l.row) :
    Breaks d [3, i, 0] (.undeclaredTile (.lock l.name) ⟨l.column, l.row⟩)
  | lockId {i : Nat} {l : Lock} (item : d.locks[i]? = some l) (above : 15 < l.id) :
    Breaks d [3, i, 1] (.lockId l.name l.id)
  | switchboxTile {i : Nat} {s : Switchbox} (item : d.switchboxes[i]? = some s)
    (undeclared : ¬ Declared d s.column s.row) :
    Breaks d [4, i] (.undeclaredTile .switchbox ⟨s.column, s.row⟩)
  | muxTile {i : Nat} {m : ShimMux} (item : d.shimMuxes[i]? = some m)
    (undeclared : ¬ Declared d m.column m.row) :
    Breaks d [5, i, 0] (.undeclaredTile .shimMux ⟨m.column, m.row⟩)
  | muxRow {i : Nat} {m : ShimMux} (item : d.shimMuxes[i]? = some m) (inner : m.row ≠ 0) :
    Breaks d [5, i, 1] (.muxOffShimRow ⟨m.column, m.row⟩)
  | memory {i : Nat} {m : MemoryDma} {k : List Nat} {e : Issue} (item : d.memories[i]? = some m)
    (breaks : m.Breaks d k e) : Breaks d (6 :: i :: k) e
  | switchbox {i : Nat} {s : Switchbox} {k : List Nat} {e : Issue}
    (item : d.switchboxes[i]? = some s) (breaks : s.Breaks k e) : Breaks d (7 :: i :: k) e

end Device

/-! ## Nothing is broken -/

/-- What fails at no place holds of every item. -/
theorem forall_mem_of_getElem? {α : Type} {l : List α} {p : α → Prop}
    (h : ∀ (i : Nat) (x : α), l[i]? = some x → ¬ ¬ p x) : ∀ x ∈ l, p x := by
  intro x hx
  obtain ⟨i, hi⟩ := List.mem_iff_getElem?.mp hx
  exact Classical.not_not.mp (h i x hi)

theorem DmaBlock.wellFormed_iff {d : Device} {m : MemoryDma} {b : DmaBlock} :
    b.WellFormed d m ↔ ∀ k e, ¬ b.Breaks d m k e := by
  constructor
  · intro h k e hb
    cases hb with
    | next next_eq unknown => exact unknown (h.next_known _ next_eq)
    | buffer item unknown => exact unknown (h.buffers_known _ (List.mem_of_getElem? item))
    | slot item twice => exact nodup_iff_not_repeats.mp h.slots_nodup _ _ item twice
    | lock item unknown => exact unknown (h.locks_known _ (List.mem_of_getElem? item))
    | locks other => exact other h.one_lock
  · intro h
    constructor
    · intro target hnext
      exact Classical.not_not.mp fun hu => h _ _ (.next hnext hu)
    · exact forall_mem_of_getElem? fun i t ht hu => h _ _ (.buffer ht hu)
    · exact nodup_iff_not_repeats.mpr fun i t ht hr => h _ _ (.slot ht hr)
    · exact forall_mem_of_getElem? fun i u hu hl => h _ _ (.lock hu hl)
    · exact Classical.not_not.mp fun hl => h _ _ (.locks hl)

theorem MemoryDma.wellFormed_iff {d : Device} {m : MemoryDma} :
    m.WellFormed d ↔ ∀ k e, ¬ m.Breaks d k e := by
  constructor
  · intro h k e hb
    cases hb with
    | tile undeclared => exact undeclared h.declared
    | row shim => exact h.row_ne shim
    | label item twice => exact nodup_iff_not_repeats.mp h.labels_nodup _ _ item twice
    | count above => exact Nat.not_lt.mpr h.descriptors_le above
    | block item breaks =>
      exact DmaBlock.wellFormed_iff.mp (h.blocks _ (List.mem_of_getElem? item)) _ _ breaks
    | start item unknown => exact unknown (h.starts_known _ (List.mem_of_getElem? item))
    | channel item above =>
      exact UInt8.not_lt.mpr (h.channel_le _ (List.mem_of_getElem? item)) above
  · intro h
    constructor
    · exact Classical.not_not.mp fun hu => h _ _ (.tile hu)
    · intro hr
      exact h _ _ (.row hr)
    · exact nodup_iff_not_repeats.mpr fun i b hb hr => h _ _ (.label hb hr)
    · exact Nat.not_lt.mp fun hc => h _ _ (.count hc)
    · intro b hb
      obtain ⟨i, hb⟩ := List.mem_iff_getElem?.mp hb
      exact DmaBlock.wellFormed_iff.mpr fun k e he => h _ _ (.block hb he)
    · exact forall_mem_of_getElem? fun i s hs hu => h _ _ (.start hs hu)
    · exact forall_mem_of_getElem? fun i s hs hc => h _ _ (.channel hs (UInt8.not_le.mp hc))

theorem Switchbox.wellFormed_iff {s : Switchbox} : s.WellFormed ↔ ∀ k e, ¬ s.Breaks k e := by
  constructor
  · intro h k e hb
    cases hb with
    | source item out => exact out (h.sources _ (List.mem_of_getElem? item))
    | dest item out => exact out (h.dests _ (List.mem_of_getElem? item))
    | master item out => exact out (h.masters _ (List.mem_of_getElem? item))
    | empty item none => exact h.amsels_ne_nil _ (List.mem_of_getElem? item) none
    | amsel item amsel unknown =>
      exact unknown (h.amsels_known _ (List.mem_of_getElem? item) _ (List.mem_of_getElem? amsel))
    | table item out => exact out (h.tables _ (List.mem_of_getElem? item))
    | rule item rule unknown =>
      exact unknown (h.rules_known _ (List.mem_of_getElem? item) _ (List.mem_of_getElem? rule))
  · intro h
    constructor
    · exact forall_mem_of_getElem? fun i c hc hr => h _ _ (.source hc hr)
    · exact forall_mem_of_getElem? fun i c hc hr => h _ _ (.dest hc hr)
    · exact forall_mem_of_getElem? fun i m hm hr => h _ _ (.master hm hr)
    · exact forall_mem_of_getElem? fun i m hm hnil => h _ _ (.empty hm (Classical.not_not.mp hnil))
    · intro m hm
      obtain ⟨i, hm⟩ := List.mem_iff_getElem?.mp hm
      exact forall_mem_of_getElem? fun j name hname hu => h _ _ (.amsel hm hname hu)
    · exact forall_mem_of_getElem? fun i p hp hr => h _ _ (.table hp hr)
    · intro p hp
      obtain ⟨i, hp⟩ := List.mem_iff_getElem?.mp hp
      exact forall_mem_of_getElem? fun j r hr hu => h _ _ (.rule hp hr hu)

theorem Device.wellFormed_iff {d : Device} : d.WellFormed ↔ ∀ k e, ¬ d.Breaks k e := by
  constructor
  · intro h k e hb
    cases hb with
    | version other => exact other h.version
    | tile item breaks =>
      have hx := List.mem_of_getElem? item
      cases breaks with
      | range out => exact out (h.tile_range _ hx)
      | column zero => exact h.tile_column_ne _ hx zero
      | place twice => exact nodup_iff_not_repeats.mp h.tiles_nodup _ _ item twice
      | kind other => exact other (h.tile_kind _ hx)
    | buffer item undeclared => exact undeclared (h.buffers _ (List.mem_of_getElem? item))
    | lock item undeclared => exact undeclared (h.locks _ (List.mem_of_getElem? item))
    | lockId item above => exact UInt8.not_lt.mpr (h.lock_ids _ (List.mem_of_getElem? item)) above
    | switchboxTile item undeclared =>
      exact undeclared (h.switchbox_tiles _ (List.mem_of_getElem? item))
    | muxTile item undeclared => exact undeclared (h.mux_tiles _ (List.mem_of_getElem? item))
    | muxRow item inner => exact inner (h.mux_row _ (List.mem_of_getElem? item))
    | memory item breaks =>
      exact MemoryDma.wellFormed_iff.mp (h.memories _ (List.mem_of_getElem? item)) _ _ breaks
    | switchbox item breaks =>
      exact Switchbox.wellFormed_iff.mp (h.switchboxes _ (List.mem_of_getElem? item)) _ _ breaks
  · intro h
    constructor
    · exact Classical.not_not.mp fun hv => h _ _ (.version hv)
    · exact forall_mem_of_getElem? fun i x hx hz =>
        h _ _ (.tile hx (.column (Classical.not_not.mp hz)))
    · exact forall_mem_of_getElem? fun i x hx hr => h _ _ (.tile hx (.range hr))
    · exact forall_mem_of_getElem? fun i x hx hk => h _ _ (.tile hx (.kind hk))
    · exact nodup_iff_not_repeats.mpr fun i x hx hr => h _ _ (.tile hx (.place hr))
    · exact forall_mem_of_getElem? fun i b hb hu => h _ _ (.buffer hb hu)
    · exact forall_mem_of_getElem? fun i l hl hu => h _ _ (.lock hl hu)
    · exact forall_mem_of_getElem? fun i l hl ho => h _ _ (.lockId hl (UInt8.not_le.mp ho))
    · exact forall_mem_of_getElem? fun i s hs hu => h _ _ (.switchboxTile hs hu)
    · intro s hs
      obtain ⟨i, hs⟩ := List.mem_iff_getElem?.mp hs
      exact Switchbox.wellFormed_iff.mpr fun k e he => h _ _ (.switchbox hs he)
    · exact forall_mem_of_getElem? fun i m hm hu => h _ _ (.muxTile hm hu)
    · exact forall_mem_of_getElem? fun i m hm hr => h _ _ (.muxRow hm hr)
    · intro m hm
      obtain ⟨i, hm⟩ := List.mem_iff_getElem?.mp hm
      exact MemoryDma.wellFormed_iff.mpr fun k e he => h _ _ (.memory hm he)

end ArrayImage
