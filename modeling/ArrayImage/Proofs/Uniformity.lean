import ArrayImage.Proofs.Locality

/-!
# ArrayImage.Proofs.Uniformity

Every array is configured in the same way.

`inArray b` takes a tile, and whatever is about a tile, to the same place of the array `b`. What an
item of a design does on a tile is `Uniform`: it does the same on the same tile of another array. So
the script of a design in one array is its script in another one, step by step
(`Device.script_inArray`), and both runs end early in the same way (`Script.stop?_map_inArray`).
-/

namespace ArrayImage

/-! ## The same place in another array -/

/-- An array that has a place in the address space. -/
abbrev ArrayIndex := Fin 0x400000000

/-- The same tile of the array `b`. -/
def TileId.inArray (t : TileId) (b : ArrayIndex) : TileId :=
  { t with array := b, array_lt := b.isLt }

def Register.inArray (r : Register) (b : ArrayIndex) : Register :=
  { r with tile := r.tile.inArray b }

def Write.inArray (b : ArrayIndex) (w : Write) : Write :=
  { w with register := w.register.inArray b, column_pos := w.column_pos }

def Diagnostic.inArray (b : ArrayIndex) (g : Diagnostic) : Diagnostic :=
  { g with tile := g.tile.inArray b }

def LoadFailure.inArray (b : ArrayIndex) (f : LoadFailure) : LoadFailure :=
  { f with tile := f.tile.inArray b }

namespace Stop

def inArray (b : ArrayIndex) : Stop → Stop
  | fault f => fault f
  | abort f => abort (f.inArray b)

end Stop

namespace Step

def inArray (b : ArrayIndex) : Step → Step
  | write w => write (w.inArray b)
  | report t p => report (t.inArray b) p
  | remark t r => remark (t.inArray b) r
  | fault f => fault f
  | abort f => abort (f.inArray b)

theorem stop?_inArray (b : ArrayIndex) (x : Step) :
    (x.inArray b).stop? = x.stop?.map (Stop.inArray b) := by
  cases x <;> rfl

theorem continues_inArray (b : ArrayIndex) (x : Step) :
    (x.inArray b).continues = x.continues := by
  cases x <;> rfl

theorem write?_inArray (b : ArrayIndex) (x : Step) :
    (x.inArray b).write? = x.write?.map (Write.inArray b) := by
  cases x <;> rfl

theorem diagnostic?_inArray (b : ArrayIndex) (x : Step) :
    (x.inArray b).diagnostic? = x.diagnostic?.map (Diagnostic.inArray b) := by
  cases x <;> rfl

/-- Neither the column nor the offset of a write, nor its fault, depends on the array. -/
theorem put_inArray (t : TileId) (b : ArrayIndex) (o : Nat) (u : Update) :
    put (t.inArray b) o u = (put t o u).inArray b := by
  have hcol : (t.inArray b).column = t.column := rfl
  simp only [put, Write.at?, hcol]
  by_cases hc : 0 < t.column
  · by_cases ho : o < windowSize
    · simp only [dif_pos hc, dif_pos ho]
      rfl
    · simp only [dif_pos hc, dif_neg ho]
      rfl
  · simp only [dif_neg hc]
    rfl

end Step

theorem TileId.isShim_inArray (t : TileId) (b : ArrayIndex) :
    (t.inArray b).isShim = t.isShim := rfl

/-- Coordinates are the ones of a tile in every array or in none. -/
theorem TileId.at?_inArray {a : Nat} (ha : a < 0x400000000) (b : ArrayIndex) (c r : Nat) :
    TileId.at? b c r = (TileId.at? a c r).map (·.inArray b) := by
  unfold TileId.at?
  by_cases hc : c < 0x80
  · by_cases hr : r < 0x20
    · simp only [dif_pos hc, dif_pos hr, dif_pos ha, dif_pos b.isLt]
      rfl
    · simp only [dif_pos hc, dif_neg hr]
      rfl
  · simp only [dif_neg hc]
    rfl

/-! ## Scripts -/

namespace Script

variable (b : ArrayIndex) (s : Script)

theorem stop?_map_inArray : stop? (s.map (Step.inArray b)) = s.stop?.map (Stop.inArray b) := by
  induction s with
  | nil => rfl
  | cons x s ih =>
    rw [stop?, stop?, List.map_cons, List.findSome?_cons, List.findSome?_cons, Step.stop?_inArray]
    cases x.stop? with
    | some stop => rfl
    | none => exact ih

theorem reached_map_inArray :
    reached (s.map (Step.inArray b)) = s.reached.map (Step.inArray b) := by
  have hcont : Step.continues ∘ Step.inArray b = Step.continues :=
    funext (Step.continues_inArray b)
  rw [reached, reached, List.takeWhile_map, hcont]

theorem writes_map_inArray : writes (s.map (Step.inArray b)) = s.writes.map (Write.inArray b) := by
  have hwrite : Step.write? ∘ Step.inArray b = fun x => x.write?.map (Write.inArray b) :=
    funext (Step.write?_inArray b)
  rw [writes, writes, reached_map_inArray, List.filterMap_map, hwrite, List.map_filterMap]

theorem diagnostics_map_inArray :
    diagnostics (s.map (Step.inArray b)) = s.diagnostics.map (Diagnostic.inArray b) := by
  have hdiag : Step.diagnostic? ∘ Step.inArray b =
      fun x => x.diagnostic?.map (Diagnostic.inArray b) := funext (Step.diagnostic?_inArray b)
  rw [diagnostics, diagnostics, reached_map_inArray, List.filterMap_map, hdiag, List.map_filterMap]

end Script

/-! ## Items -/

/-- What `f` does on a tile, it does on the same tile of every other array. -/
def Uniform (f : TileId → Script) : Prop :=
  ∀ t b, f (t.inArray b) = (f t).map (Step.inArray b)

namespace Uniform

variable {α : Type} {f g : TileId → Script}

theorem append (hf : Uniform f) (hg : Uniform g) : Uniform fun t => f t ++ g t := by
  intro t b
  show f (t.inArray b) ++ g (t.inArray b) = _
  rw [hf t b, hg t b, List.map_append]

theorem flatMap {h : α → TileId → Script} (hh : ∀ x, Uniform (h x)) (l : List α) :
    Uniform fun t => l.flatMap fun x => h x t := by
  intro t b
  simp only [hh _ t b, List.map_flatMap]

theorem puts (o : α → Nat) (u : α → Update) (l : List α) :
    Uniform fun t => l.map fun x => Step.put t (o x) (u x) := by
  intro t b
  simp only [List.map_map, Step.put_inArray]
  rfl

theorem reports (l : List Problem) : Uniform fun t => l.map (Step.report t) := by
  intro t b
  rw [List.map_map]
  rfl

theorem onTile (hf : Uniform f) {a : Nat} (ha : a < 0x400000000) (b : ArrayIndex) (c r : Nat) :
    Script.onTile b c r f = (Script.onTile a c r f).map (Step.inArray b) := by
  unfold Script.onTile
  rw [TileId.at?_inArray ha]
  cases TileId.at? a c r with
  | error fault => rfl
  | ok t => exact hf t b

end Uniform

theorem Script.uniform_clear (start length : Nat) : Uniform fun t => clear t start length := by
  intro t b
  simp only [clear]
  split
  · rfl
  · split
    · rfl
    · cases checkedAdd 32 start length with
      | error fault => rfl
      | ok last => exact Uniform.puts (fun i => start + 4 * i) (fun _ => .put 0) _ t b

theorem uniform_clearSteps (regions : List Region) : Uniform fun t => clearSteps t regions :=
  Uniform.flatMap (h := fun (r : Region) t => Script.clear t r.base r.size)
    (fun r => Script.uniform_clear r.base r.size) regions

theorem Segment.uniform_placeSteps (s : Segment) : Uniform fun t => s.placeSteps t := by
  intro t b
  simp only [placeSteps]
  cases s.destination with
  | error fault => rfl
  | ok dest =>
    simp only [List.mapIdx_eq_zipIdx_map]
    exact Uniform.puts (fun x : Word × Nat => dest + 4 * x.2) (fun x => .put x.1) _ t b

theorem loadSteps.uniform_failed (path : String) (cause : LoadError) :
    Uniform fun t => failed t path cause := by
  intro t b
  simp only [failed]
  split <;> rfl

theorem ProgramImage.placeSteps_inArray (p : ProgramImage) (t : TileId) (b : ArrayIndex) :
    p.placeSteps (t.inArray b) = (p.placeSteps t).map (List.map (Step.inArray b)) := by
  unfold placeSteps
  cases p.verdict with
  | fits => exact congrArg Except.ok (Uniform.flatMap Segment.uniform_placeSteps p.segments t b)
  | rejected error => rfl
  | broken fault => rfl

theorem uniform_loadSteps (source : ProgramSource) (dir : String) (x : Tile) :
    Uniform fun t => loadSteps source dir t x := by
  intro t b
  simp only [loadSteps]
  cases x.core with
  | none => rfl
  | some core =>
    simp only
    generalize programPath dir x.column x.row core.programFile = path
    have hfailed := fun cause => loadSteps.uniform_failed path cause t b
    cases source path with
    | error cause => exact hfailed cause
    | ok image =>
      simp only [image.placeSteps_inArray t b]
      have hremark : (if image.segments.isEmpty then
            [Step.remark (t.inArray b) .emptyProgram] else []) =
          (if image.segments.isEmpty then [Step.remark t .emptyProgram] else []).map
            (Step.inArray b) := by
        split <;> rfl
      cases image.placeSteps t with
      | error cause => simp only [Except.map, hremark, hfailed, List.map_append]
      | ok steps => simp only [Except.map, hremark, List.map_append]

theorem Tile.uniform_stepsOn (source : ProgramSource) (dir : String) (x : Tile) :
    Uniform fun t => x.stepsOn source dir t := by
  intro t b
  simp only [stepsOn]
  split
  · exact (uniform_clearSteps _).append (uniform_loadSteps source dir x) t b
  · exact uniform_clearSteps _ t b

theorem Connect.uniform_steps (c : Connect) : Uniform fun t => c.steps t := by
  intro t b
  simp only [steps, t.isShim_inArray b]
  cases c.source.number .slave t.isShim with
  | error error => rfl
  | ok slave =>
    cases c.dest.number .master t.isShim with
    | error error => rfl
    | ok master => simp only [Step.put_inArray, List.map_cons, List.map_nil]

theorem MasterSet.uniform_steps (s : Switchbox) (m : MasterSet) : Uniform fun t => m.steps t s := by
  intro t b
  simp only [steps, t.isShim_inArray b]
  cases m.dest.number .master t.isShim with
  | error error => rfl
  | ok master =>
    cases s.select m.amsels 0 none with
    | unknown name => rfl
    | fault fault => rfl
    | selected mask arbiter =>
      cases arbiter with
      | none => rfl
      | some arbiter => simp only [Step.put_inArray, List.map_cons, List.map_nil]

theorem PacketRule.uniform_steps (s : Switchbox) (slave slot : Nat) (r : PacketRule) :
    Uniform fun t => r.steps t s slave slot := by
  intro t b
  simp only [steps]
  cases s.amsel? r.amsel with
  | none => rfl
  | some amsel => simp only [Step.put_inArray, List.map_cons, List.map_nil]

theorem PacketTable.uniform_steps (s : Switchbox) (p : PacketTable) :
    Uniform fun t => p.steps t s := by
  intro t b
  simp only [steps, t.isShim_inArray b]
  cases p.source.number .slave t.isShim with
  | error error => rfl
  | ok slave =>
    have hrules : ∀ slot (r : PacketRule), r.steps (t.inArray b) s slave slot =
        (r.steps t s slave slot).map (Step.inArray b) := fun slot r =>
      r.uniform_steps s slave slot t b
    simp only [hrules, List.map_append, List.map_flatten, List.mapIdx_eq_zipIdx_map, List.map_map]
    congr 1
    split <;> rfl

theorem Switchbox.uniform_steps (s : Switchbox) : Uniform fun t => s.steps t :=
  ((Uniform.flatMap Connect.uniform_steps s.connects).append
    (.flatMap (MasterSet.uniform_steps s) s.masterSets)).append
      (.flatMap (PacketTable.uniform_steps s) s.packetTables)

theorem Connect.uniform_muxSteps (c : Connect) : Uniform fun t => c.muxSteps t := by
  intro t b
  simp only [muxSteps]
  cases c.muxBits with
  | error error => rfl
  | ok bits =>
    cases bits with
    | none => rfl
    | some p => simp only [Step.put_inArray, List.map_cons, List.map_nil]

theorem ShimMux.uniform_steps (m : ShimMux) :
    Uniform fun t => m.connects.flatMap (Connect.muxSteps t) :=
  .flatMap Connect.uniform_muxSteps m.connects

section Dma

variable (d : Device) (addresses : AddressSource)

/-- A descriptor does not depend on the tile at all. -/
theorem DmaBlock.describe_inArray (block : DmaBlock) (t : TileId) (b : ArrayIndex) :
    block.describe d addresses (t.inArray b) = ((block.describe d addresses t).1,
      (block.describe d addresses t).2.map (Step.inArray b)) := by
  unfold describe
  split
  · rfl
  · cases d.gather addresses block.transfers none none with
    | unresolved buffer => rfl
    | fault f => rfl
    | spans x y => exact congrArg (Prod.mk _) (Uniform.reports _ t b)

theorem MemoryDma.described_inArray (m : MemoryDma) (t : TileId) (b : ArrayIndex) :
    m.described d addresses (t.inArray b) = m.described d addresses t := by
  simp only [described, DmaBlock.describe_inArray]

theorem uniform_idleSteps : Uniform idleSteps := by
  refine .flatMap (fun direction => .flatMap (fun channel => ?_) _) _
  intro t b
  simp only [Step.put_inArray, List.map_cons, List.map_nil]

theorem uniform_descriptorSteps (labels : List String) (block : DmaBlock) (x : Descriptor) :
    Uniform fun t => descriptorSteps t labels block x := by
  intro t b
  simp only [descriptorSteps]
  split
  · rw [List.map_append, ← Uniform.puts (fun p : Nat × Word => _ + p.1) (fun p => .put p.2) _ t b]
    rfl
  · rfl

theorem ChannelStart.uniform_steps (labels : List String) (s : ChannelStart) :
    Uniform fun t => s.steps t labels := by
  intro t b
  simp only [steps]
  split
  · rfl
  · split
    · simp only [Step.put_inArray, List.map_cons, List.map_nil]
    · rfl

theorem MemoryDma.uniform_steps (m : MemoryDma) : Uniform fun t => m.steps d addresses t := by
  intro t b
  have hblocks : m.blocks.flatMap (fun block => (block.describe d addresses (t.inArray b)).2) =
      (m.blocks.flatMap fun block => (block.describe d addresses t).2).map (Step.inArray b) := by
    simp only [DmaBlock.describe_inArray, List.map_flatMap]
  simp only [steps, t.isShim_inArray b, m.described_inArray d addresses t b, hblocks]
  split
  · rfl
  · simp only [List.map_append, uniform_idleSteps t b,
      Uniform.flatMap (fun p : DmaBlock × Descriptor => uniform_descriptorSteps _ p.1 p.2) _ t b,
      Uniform.flatMap (ChannelStart.uniform_steps _) m.starts t b]

end Dma

/-! ## Designs -/

namespace Device

variable (d : Device) (source : ProgramSource) (dir : String) (addresses : AddressSource)

def inArray (b : ArrayIndex) : Device :=
  { d with arrayOffset := .ofNat b }

theorem toNat_arrayOffset_inArray (b : ArrayIndex) : (d.inArray b).arrayOffset.toNat = b :=
  UInt64.toNat_ofNat_of_lt' (Nat.lt_trans b.isLt (by decide))

variable {d} (ha : d.arrayOffset.toNat < 0x400000000) (b : ArrayIndex)

include ha

theorem tileSteps_inArray :
    (d.inArray b).tileSteps source dir = (d.tileSteps source dir).map (Step.inArray b) := by
  have htile : Tile.setupSteps source dir (d.inArray b).arrayOffset.toNat =
      fun x => (x.setupSteps source dir d.arrayOffset.toNat).map (Step.inArray b) := by
    funext x
    rw [toNat_arrayOffset_inArray]
    exact (x.uniform_stepsOn source dir).onTile ha b _ _
  rw [tileSteps, tileSteps, List.map_flatMap, htile]
  rfl

theorem switchSteps_inArray :
    (d.inArray b).switchSteps = d.switchSteps.map (Step.inArray b) := by
  simp only [switchSteps, List.map_flatMap, toNat_arrayOffset_inArray,
    (Switchbox.uniform_steps _).onTile ha b]
  rfl

theorem muxSteps_inArray : (d.inArray b).muxSteps = d.muxSteps.map (Step.inArray b) := by
  simp only [muxSteps, List.map_flatMap, toNat_arrayOffset_inArray,
    (ShimMux.uniform_steps _).onTile ha b]
  rfl

theorem dmaSteps_inArray :
    (d.inArray b).dmaSteps addresses = (d.dmaSteps addresses).map (Step.inArray b) := by
  have hmem : ∀ (m : MemoryDma) t, m.steps (d.inArray b) addresses t = m.steps d addresses t :=
    fun m t => MemoryDma.steps_congr (e := d.inArray b) (d := d) rfl rfl addresses t m
  simp only [dmaSteps, List.map_flatMap, toNat_arrayOffset_inArray, hmem,
    (MemoryDma.uniform_steps d addresses _).onTile ha b]
  rfl

/-- A design does in an array what it does in every other one. -/
theorem script_inArray : (d.inArray b).script source dir addresses =
    (d.script source dir addresses).map (Step.inArray b) := by
  simp only [script_eq, List.map_append, tileSteps_inArray source dir ha, switchSteps_inArray ha,
    muxSteps_inArray ha, dmaSteps_inArray addresses ha]

end Device
end ArrayImage
