import ArrayImage.Proofs.Reset
import ArrayImage.Stream.Routing

/-!
# ArrayImage.Proofs.Layout

The sections of an image, as far as they follow from a design without its programs.

Each kind of tile has its own list of regions, and a shim has one more for the mux registers that
its connects need. `Device.sectionRegions` puts the regions of all tiles one behind the other, in
the order of the tiles in the array. They have gaps between them (`spaced_sectionRegions`), and
they hold what is cleared and the registers of the muxes (`mem_sectionRegions`).
-/

namespace ArrayImage

open RegisterMap

/-! ## Regions of one tile -/

def computeSections : List Region :=
  [⟨0x0, 0x8000⟩, ⟨0x1D000, 0x200⟩, ⟨0x1DE00, 0x20⟩, ⟨0x20000, 0x4000⟩, ⟨0x3F000, 0x64⟩,
    ⟨0x3F100, 0x6C⟩, ⟨0x3F200, 0x1A0⟩]

/-- The section of the mux registers of a shim that are needed. -/
def muxSections : (mux demux : Bool) → List Region
  | true, true => [⟨0x1F000, 8⟩]
  | true, false => [⟨0x1F000, 4⟩]
  | false, true => [⟨0x1F004, 4⟩]
  | false, false => []

def shimSections (network mux demux : Bool) : List Region :=
  (if network then [⟨0x1D000, 0x140⟩] else []) ++ muxSections mux demux ++
    [⟨0x3F000, 0x5C⟩, ⟨0x3F100, 0x60⟩, ⟨0x3F200, 0x180⟩]

theorem Region.mem_words_iff {base size o : Nat} (hb : base % 4 = 0) (hs : size % 4 = 0) :
    o ∈ (⟨base, size⟩ : Region).words ↔ base ≤ o ∧ o < base + size ∧ o % 4 = 0 := by
  rw [mem_words]
  constructor
  · rintro ⟨i, hi, rfl⟩
    simp only at hi ⊢
    omega
  · rintro ⟨hle, hlt, h4⟩
    refine ⟨(o - base) / 4, ?_, ?_⟩
    · simp only
      omega
    · simp only
      omega

/-- The channels of the two directions lie side by side. -/
theorem mem_channels {o : Nat} : o ∈ (⟨0x1DE00, 0x20⟩ : Region).words ↔
    o ∈ s2mmChannels.words ∨ o ∈ mm2sChannels.words := by
  rw [s2mmChannels, mm2sChannels, channelCount, Region.mem_words_iff (by decide) (by decide),
    Region.mem_words_iff (by decide) (by decide), Region.mem_words_iff (by decide) (by decide)]
  omega

theorem mem_computeSections {o : Nat} :
    (∃ r ∈ computeSections, o ∈ r.words) ↔ ∃ r ∈ computeRegions, o ∈ r.words := by
  have hregions : computeRegions = [⟨0x20000, 0x4000⟩, ⟨0x0, 0x8000⟩, ⟨0x1D000, 0x200⟩,
    s2mmChannels, mm2sChannels, ⟨0x3F000, 0x64⟩, ⟨0x3F100, 0x6C⟩, ⟨0x3F200, 0x1A0⟩] := rfl
  rw [hregions, computeSections]
  simp only [List.mem_cons, List.not_mem_nil, or_false, exists_eq_or_imp, exists_eq_left,
    mem_channels]
  constructor
  · rintro (h | h | (h | h) | h | h | h | h) <;> simp only [h, true_or, or_true]
  · rintro (h | h | h | h | h | h | h | h) <;> simp only [h, true_or, or_true]

theorem mem_muxSections {mux demux : Bool} {o : Nat} :
    (∃ r ∈ muxSections mux demux, o ∈ r.words) ↔
      (mux = true ∧ o = shimMux) ∨ (demux = true ∧ o = shimDemux) := by
  have hboth : o ∈ (⟨0x1F000, 8⟩ : Region).words ↔ o = shimMux ∨ o = shimDemux := by
    rw [Region.mem_words_iff (by decide) (by decide), shimMux, shimDemux]
    omega
  have hmux : o ∈ (⟨0x1F000, 4⟩ : Region).words ↔ o = shimMux := by
    rw [Region.mem_words_iff (by decide) (by decide), shimMux]
    omega
  have hdemux : o ∈ (⟨0x1F004, 4⟩ : Region).words ↔ o = shimDemux := by
    rw [Region.mem_words_iff (by decide) (by decide), shimDemux]
    omega
  cases mux <;> cases demux <;> simp [muxSections, hboth, hmux, hdemux]

theorem mem_shimSections {network mux demux : Bool} {o : Nat} :
    (∃ r ∈ shimSections network mux demux, o ∈ r.words) ↔
      (∃ r ∈ shimRegions network, o ∈ r.words) ∨ (mux = true ∧ o = shimMux) ∨
        (demux = true ∧ o = shimDemux) := by
  rw [← mem_muxSections]
  have hregions : shimRegions network = (if network then [⟨0x1D000, 0x140⟩] else []) ++
    [⟨0x3F000, 0x5C⟩, ⟨0x3F100, 0x60⟩, ⟨0x3F200, 0x180⟩] := rfl
  simp only [hregions, shimSections, List.mem_append, or_and_right, exists_or]
  rw [or_right_comm]

/-! ## Regions of all tiles -/

def Region.shift (n : Nat) (r : Region) : Region :=
  ⟨n + r.base, r.size⟩

theorem Region.mem_words_shift {n a : Nat} {r : Region} :
    a ∈ (r.shift n).words ↔ ∃ o ∈ r.words, a = n + o := by
  simp only [mem_words, shift]
  constructor
  · rintro ⟨i, hi, rfl⟩
    exact ⟨_, ⟨i, hi, rfl⟩, Nat.add_assoc _ _ _⟩
  · rintro ⟨_, ⟨i, hi, rfl⟩, rfl⟩
    exact ⟨i, hi, (Nat.add_assoc _ _ _).symm⟩

def Tile.windowBase (array : UInt64) (x : Tile) : Nat :=
  array.toNat * 0x40000000 + x.column.toNat * 0x800000 + x.row.toNat * 0x40000

/-- Tiles come by columns, and by rows inside a column. -/
def Tile.before (x y : Tile) : Bool :=
  x.column < y.column || (x.column == y.column && x.row ≤ y.row)

theorem Tile.before_iff {x y : Tile} : x.before y = true ↔
    x.column.toNat < y.column.toNat ∨
      x.column.toNat = y.column.toNat ∧ x.row.toNat ≤ y.row.toNat := by
  simp only [before, Bool.or_eq_true, Bool.and_eq_true, decide_eq_true_eq, beq_iff_eq,
    UInt8.lt_iff_toNat_lt, UInt8.le_iff_toNat_le, ← UInt8.toNat_inj]

theorem Tile.before_trans (x y z : Tile) (hxy : x.before y = true) (hyz : y.before z = true) :
    x.before z = true := by
  rw [before_iff] at *
  omega

theorem Tile.before_total (x y : Tile) : (x.before y || y.before x) = true := by
  rw [Bool.or_eq_true, before_iff, before_iff]
  omega

namespace Device

/-- A shim mux on the tile has a connect that needs this mux register. -/
def needsMux (d : Device) (x : Tile) (register : Nat) : Bool :=
  d.shimMuxes.any fun m => m.column == x.column && m.row == x.row &&
    m.connects.any fun c =>
      match c.muxBits with
      | .ok (some (o, _)) => o == register
      | _ => false

def tileSections (d : Device) (x : Tile) : List Region :=
  match x.kind with
  | .compute => computeSections
  | kind => shimSections (kind == .shimNoc) (d.needsMux x shimMux) (d.needsMux x shimDemux)

def sortedTiles (d : Device) : List Tile :=
  d.tiles.mergeSort Tile.before

/-- The sections of all tiles of a design. -/
def sectionRegions (d : Device) : List Region :=
  d.sortedTiles.flatMap fun x => (d.tileSections x).map (Region.shift (x.windowBase d.arrayOffset))

theorem mem_sortedTiles {d : Device} {x : Tile} : x ∈ d.sortedTiles ↔ x ∈ d.tiles :=
  (List.mergeSort_perm d.tiles Tile.before).mem_iff

theorem tileSections_compute {d : Device} {x : Tile} (hk : x.kind = .compute) :
    d.tileSections x = computeSections := by
  rw [tileSections, hk]

theorem tileSections_shim {d : Device} {x : Tile} (hk : x.kind ≠ .compute) :
    d.tileSections x = shimSections (x.kind == .shimNoc) (d.needsMux x shimMux)
      (d.needsMux x shimDemux) := by
  unfold tileSections
  split
  · exact absurd ‹_› hk
  · rfl

/-- The sections of a tile are whole, have gaps between them, and lie in the window, with a gap
behind the last one. -/
theorem tileSections_spaced (d : Device) (x : Tile) :
    (∀ r ∈ d.tileSections x, r.Whole ∧ r.base + r.size < 0x40000) ∧
      Region.Spaced (d.tileSections x) := by
  by_cases hk : x.kind = .compute
  · rw [tileSections_compute hk]
    simp only [Region.Whole, Region.Spaced]
    decide
  · rw [tileSections_shim hk]
    generalize (x.kind == .shimNoc) = network
    generalize d.needsMux x shimMux = mux
    generalize d.needsMux x shimDemux = demux
    simp only [Region.Whole, Region.Spaced]
    revert network mux demux
    decide

theorem windowBase_lt {a : UInt64} {x y : Tile} (hx : x.row ≤ 31) (hxy : x.before y = true)
    (hne : (⟨x.column, x.row⟩ : Coordinates) ≠ ⟨y.column, y.row⟩) :
    x.windowBase a + 0x40000 ≤ y.windowBase a := by
  have hrow : x.row.toNat ≤ 31 := UInt8.le_iff_toNat_le.mp hx
  have hdiff : ¬ (x.column.toNat = y.column.toNat ∧ x.row.toNat = y.row.toNat) := by
    rintro ⟨hc, hr⟩
    exact hne (by rw [UInt8.toNat_inj.mp hc, UInt8.toNat_inj.mp hr])
  rw [Tile.before_iff] at hxy
  rw [Tile.windowBase, Tile.windowBase]
  omega

/-- The windows of the sorted tiles of a valid design come one behind the other. -/
theorem sortedTiles_ascending {d : Device} (hv : d.Valid) :
    d.sortedTiles.Pairwise fun x y =>
      x.windowBase d.arrayOffset + 0x40000 ≤ y.windowBase d.arrayOffset := by
  have hsorted : d.sortedTiles.Pairwise fun x y => x.before y = true :=
    List.pairwise_mergeSort Tile.before_trans Tile.before_total d.tiles
  have hnodup : (d.sortedTiles.map Validation.place).Nodup :=
    ((List.mergeSort_perm d.tiles Tile.before).map _).nodup_iff.mpr hv.tiles_nodup
  refine (hsorted.and (List.pairwise_map.mp hnodup)).imp_of_mem fun {x y} hx _ h => ?_
  exact windowBase_lt (hv.tile_range x (mem_sortedTiles.mp hx)).2 h.1 h.2

theorem spaced_sectionRegions {d : Device} (hv : d.Valid) : Region.Spaced d.sectionRegions := by
  rw [sectionRegions, Region.Spaced, List.pairwise_flatMap]
  constructor
  · intro x _
    rw [List.pairwise_map]
    refine (d.tileSections_spaced x).2.imp fun {r s} hrs => ?_
    simp only [Region.shift]
    omega
  · refine (sortedTiles_ascending hv).imp fun {x y} hxy r hr s hs => ?_
    obtain ⟨r', hr', rfl⟩ := List.mem_map.mp hr
    obtain ⟨s', -, rfl⟩ := List.mem_map.mp hs
    have hlt := ((d.tileSections_spaced x).1 r' hr').2
    simp only [Region.shift]
    omega

theorem whole_sectionRegions (d : Device) : ∀ r ∈ d.sectionRegions, r.Whole := by
  intro r hr
  obtain ⟨x, -, hr⟩ := List.mem_flatMap.mp hr
  obtain ⟨r', hr', rfl⟩ := List.mem_map.mp hr
  exact ((d.tileSections_spaced x).1 r' hr').1

theorem needsMux_iff {d : Device} {x : Tile} {register : Nat} : d.needsMux x register = true ↔
    ∃ m ∈ d.shimMuxes, m.column = x.column ∧ m.row = x.row ∧
      ∃ c ∈ m.connects, ∃ bits, c.muxBits = .ok (some (register, bits)) := by
  have hconnect : ∀ c : Connect, (match c.muxBits with
      | .ok (some (o, _)) => o == register
      | _ => false) = true ↔ ∃ bits, c.muxBits = .ok (some (register, bits)) := by
    intro c
    cases c.muxBits with
    | error e => simp
    | ok bits =>
      cases bits with
      | none => simp
      | some p => simp [Prod.ext_iff]
  simp only [needsMux, List.any_eq_true, Bool.and_eq_true, beq_iff_eq, hconnect, and_assoc]

theorem mem_sectionRegions {d : Device} {a : Nat} :
    a ∈ d.sectionRegions.flatMap Region.words ↔ ∃ x ∈ d.tiles, ∃ o,
      (∃ r ∈ d.tileSections x, o ∈ r.words) ∧ a = x.windowBase d.arrayOffset + o := by
  simp only [sectionRegions, List.mem_flatMap, List.mem_map]
  constructor
  · rintro ⟨_, ⟨x, hx, r, hr, rfl⟩, ha⟩
    obtain ⟨o, ho, rfl⟩ := Region.mem_words_shift.mp ha
    exact ⟨x, mem_sortedTiles.mp hx, o, ⟨r, hr, ho⟩, rfl⟩
  · rintro ⟨x, hx, o, ⟨r, hr, ho⟩, rfl⟩
    exact ⟨_, ⟨x, mem_sortedTiles.mpr hx, r, hr, rfl⟩, Region.mem_words_shift.mpr ⟨o, ho, rfl⟩⟩

end Device
end ArrayImage
