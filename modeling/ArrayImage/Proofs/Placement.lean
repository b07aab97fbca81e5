import ArrayImage.Compile
import ArrayImage.Proofs.Script

/-!
# ArrayImage.Proofs.Placement

Every item of a design works on the tile where it sits: the steps of a declared tile, a switchbox,
a shim mux or a DMA program write, report and remark on that one tile only. Each generator of
steps has its `isOn` lemma, up to the four kinds of items.
-/

namespace ArrayImage

/-! ## Tiles -/

theorem Script.isOn_clear (t : TileId) (start length : Nat) : IsOn t (clear t start length) := by
  simp only [clear]
  split
  · simp [Step.tile?]
  · split
    · simp [Step.tile?]
    · cases checkedAdd 32 start length with
      | error fault => simp [Step.tile?]
      | ok last =>
        rw [isOn_map]
        intro i _ u hu
        exact eq_of_tile?_put hu

theorem isOn_clearSteps (t : TileId) (regions : List Region) :
    Script.IsOn t (clearSteps t regions) := by
  rw [clearSteps, Script.isOn_flatMap]
  intro r _
  exact Script.isOn_clear t r.base r.size

theorem Segment.isOn_placeSteps (t : TileId) (s : Segment) : Script.IsOn t (s.placeSteps t) := by
  unfold placeSteps
  cases s.destination with
  | error fault => simp [Step.tile?]
  | ok dest =>
    intro x hx u hu
    obtain ⟨i, hi, rfl⟩ := List.mem_mapIdx.mp hx
    exact Script.eq_of_tile?_put hu

def ProgramImage.remarks (t : TileId) (p : ProgramImage) : Script :=
  if p.segments.isEmpty then [.remark t .emptyProgram] else []

/-- What comes of the program of a tile, with the steps that it takes. -/
inductive Tile.Loads (source : ProgramSource) (dir : String) (t : TileId) (x : Tile) :
    Script → Prop where
  | absent (core_eq : x.core = none) : Loads source dir t x []
  | unread {core : Core} {cause : LoadError} (core_eq : x.core = some core)
    (unread : source (programPath dir x.column x.row core.programFile) = .error cause) :
    Loads source dir t x
      (loadSteps.failed t (programPath dir x.column x.row core.programFile) cause)
  | placed {core : Core} {image : ProgramImage} (core_eq : x.core = some core)
    (read : source (programPath dir x.column x.row core.programFile) = .ok image)
    (fits : image.verdict = .fits) :
    Loads source dir t x (image.remarks t ++ image.segments.flatMap (Segment.placeSteps t))
  | rejected {core : Core} {image : ProgramImage} {cause : LoadError} (core_eq : x.core = some core)
    (read : source (programPath dir x.column x.row core.programFile) = .ok image)
    (rejected : image.verdict = .rejected cause) :
    Loads source dir t x (image.remarks t ++
      loadSteps.failed t (programPath dir x.column x.row core.programFile) cause)
  | broken {core : Core} {image : ProgramImage} {fault : Fault} (core_eq : x.core = some core)
    (read : source (programPath dir x.column x.row core.programFile) = .ok image)
    (broken : image.verdict = .broken fault) :
    Loads source dir t x (image.remarks t ++ [.fault fault])

theorem Tile.loads_loadSteps (source : ProgramSource) (dir : String) (t : TileId) (x : Tile) :
    x.Loads source dir t (loadSteps source dir t x) := by
  unfold loadSteps
  cases hcore : x.core with
  | none => exact .absent hcore
  | some core =>
    simp only
    cases himage : source (programPath dir x.column x.row core.programFile) with
    | error cause => exact .unread hcore himage
    | ok image =>
      simp only [ProgramImage.placeSteps]
      cases hv : image.verdict with
      | fits => exact .placed hcore himage hv
      | rejected cause => exact .rejected hcore himage hv
      | broken fault => exact .broken hcore himage hv

theorem loadSteps.isOn_failed (t : TileId) (path : String) (cause : LoadError) :
    Script.IsOn t (failed t path cause) := by
  unfold failed
  split <;> simp [Step.tile?]

theorem isOn_loadSteps (source : ProgramSource) (dir : String) (t : TileId) (x : Tile) :
    Script.IsOn t (loadSteps source dir t x) := by
  have hremarks : ∀ image : ProgramImage, Script.IsOn t (image.remarks t) := by
    intro image
    unfold ProgramImage.remarks
    split <;> simp [Step.tile?]
  have h := x.loads_loadSteps source dir t
  generalize loadSteps source dir t x = steps at h ⊢
  cases h with
  | absent => simp
  | unread => exact loadSteps.isOn_failed t _ _
  | placed =>
    rw [Script.isOn_append, Script.isOn_flatMap]
    exact ⟨hremarks _, fun s _ => s.isOn_placeSteps t⟩
  | rejected => exact Script.isOn_append.mpr ⟨hremarks _, loadSteps.isOn_failed t _ _⟩
  | broken =>
    rw [Script.isOn_append]
    exact ⟨hremarks _, by simp [Step.tile?]⟩

/-- The steps of a declared tile, once it is known where the tile is. -/
def Tile.stepsOn (source : ProgramSource) (dir : String) (t : TileId) (x : Tile) : Script :=
  match x.kind with
  | .compute => clearSteps t TileKind.compute.resetRegions ++ loadSteps source dir t x
  | kind => clearSteps t kind.resetRegions

theorem Tile.setupSteps_eq (source : ProgramSource) (dir : String) (a : Nat) (x : Tile) :
    x.setupSteps source dir a =
      Script.onTile a x.column.toNat x.row.toNat fun t => x.stepsOn source dir t := rfl

theorem Tile.isOn_stepsOn (source : ProgramSource) (dir : String) (x : Tile) (t : TileId) :
    Script.IsOn t (x.stepsOn source dir t) := by
  unfold stepsOn
  split
  · exact Script.isOn_append.mpr ⟨isOn_clearSteps _ _, isOn_loadSteps _ _ _ _⟩
  · exact isOn_clearSteps _ _

/-! ## Stream switches and shim muxes -/

theorem Connect.isOn_steps (t : TileId) (c : Connect) : Script.IsOn t (c.steps t) := by
  unfold steps
  split
  · simp [Step.tile?]
  · split
    · simp [Step.tile?]
    · simp only [Script.isOn_cons, Script.isOn_nil, and_true]
      constructor
      · intro u hu
        exact Script.eq_of_tile?_put hu
      · intro u hu
        exact Script.eq_of_tile?_put hu

theorem MasterSet.isOn_steps (t : TileId) (s : Switchbox) (m : MasterSet) :
    Script.IsOn t (m.steps t s) := by
  unfold steps
  split
  · simp [Step.tile?]
  · split
    · simp [Step.tile?]
    · simp [Step.tile?]
    · simp [Step.tile?]
    · simp only [Script.isOn_cons, Script.isOn_nil, and_true]
      intro u hu
      exact Script.eq_of_tile?_put hu

theorem PacketRule.isOn_steps (t : TileId) (s : Switchbox) (slave slot : Nat) (r : PacketRule) :
    Script.IsOn t (r.steps t s slave slot) := by
  unfold steps
  split
  · simp [Step.tile?]
  · simp only [Script.isOn_cons, Script.isOn_nil, and_true]
    constructor
    · intro u hu
      exact Script.eq_of_tile?_put hu
    · intro u hu
      exact Script.eq_of_tile?_put hu

theorem PacketTable.isOn_steps (t : TileId) (s : Switchbox) (p : PacketTable) :
    Script.IsOn t (p.steps t s) := by
  unfold steps
  split
  · simp [Step.tile?]
  · rw [Script.isOn_append]
    constructor
    · intro x hx
      obtain ⟨ys, hys, hxy⟩ := List.mem_flatten.mp hx
      obtain ⟨i, hi, rfl⟩ := List.mem_mapIdx.mp hys
      exact PacketRule.isOn_steps _ _ _ _ _ x hxy
    · split <;> simp [Step.tile?]

theorem Switchbox.isOn_steps (s : Switchbox) (t : TileId) : Script.IsOn t (s.steps t) := by
  simp only [steps, Script.isOn_append, Script.isOn_flatMap]
  refine ⟨⟨?_, ?_⟩, ?_⟩
  · intro c _
    exact c.isOn_steps t
  · intro m _
    exact m.isOn_steps t s
  · intro p _
    exact p.isOn_steps t s

theorem Connect.isOn_muxSteps (t : TileId) (c : Connect) : Script.IsOn t (c.muxSteps t) := by
  unfold muxSteps
  split
  · simp [Step.tile?]
  · simp
  · simp only [Script.isOn_cons, Script.isOn_nil, and_true]
    exact fun _ h => Script.eq_of_tile?_put h

theorem ShimMux.isOn_steps (m : ShimMux) (t : TileId) :
    Script.IsOn t (m.connects.flatMap (Connect.muxSteps t)) := by
  rw [Script.isOn_flatMap]
  intro c _
  exact c.isOn_muxSteps t

/-! ## DMA programs -/

theorem DmaBlock.isOn_describe (d : Device) (addresses : AddressSource) (t : TileId)
    (b : DmaBlock) : Script.IsOn t (b.describe d addresses t).2 := by
  unfold describe
  split
  · simp
  · split
    · simp [Step.tile?]
    · simp [Step.tile?]
    · rw [Script.isOn_map]
      rintro p _ u ⟨⟩
      rfl

theorem isOn_idleSteps (t : TileId) : Script.IsOn t (idleSteps t) := by
  simp only [idleSteps, Script.isOn_flatMap, Script.isOn_cons, Script.isOn_nil, and_true]
  intro direction _ channel _
  constructor
  · intro u hu
    exact Script.eq_of_tile?_put hu
  · intro u hu
    exact Script.eq_of_tile?_put hu

theorem isOn_descriptorSteps (t : TileId) (labels : List String) (b : DmaBlock) (x : Descriptor) :
    Script.IsOn t (descriptorSteps t labels b x) := by
  simp only [descriptorSteps]
  split
  · rw [Script.isOn_append, Script.isOn_map]
    refine ⟨?_, by simp [Step.tile?]⟩
    intro p _ u hu
    exact Script.eq_of_tile?_put hu
  · simp [Step.tile?]

theorem ChannelStart.isOn_steps (t : TileId) (labels : List String) (s : ChannelStart) :
    Script.IsOn t (s.steps t labels) := by
  simp only [steps]
  split
  · simp [Step.tile?]
  · split
    · simp only [Script.isOn_cons, Script.isOn_nil, and_true]
      constructor
      · intro u hu
        exact Script.eq_of_tile?_put hu
      · intro u hu
        exact Script.eq_of_tile?_put hu
    · simp [Step.tile?]

theorem MemoryDma.isOn_steps (d : Device) (addresses : AddressSource) (m : MemoryDma)
    (t : TileId) : Script.IsOn t (m.steps d addresses t) := by
  simp only [steps]
  split
  · simp [Step.tile?]
  · simp only [Script.isOn_append, Script.isOn_flatMap]
    refine ⟨⟨⟨isOn_idleSteps t, ?_⟩, ?_⟩, ?_⟩
    · intro b _
      exact b.isOn_describe d addresses t
    · intro p _
      exact isOn_descriptorSteps t _ p.1 p.2
    · intro s _
      exact s.isOn_steps t _

/-! ## Designs -/

namespace Device

def switchSteps (d : Device) : Script :=
  (d.switchboxes.filter fun s => !s.isEmpty).flatMap fun s =>
    Script.onTile d.arrayOffset.toNat s.column.toNat s.row.toNat fun t => s.steps t

def muxSteps (d : Device) : Script :=
  d.shimMuxes.flatMap fun m =>
    Script.onTile d.arrayOffset.toNat m.column.toNat m.row.toNat fun t =>
      m.connects.flatMap (Connect.muxSteps t)

theorem streamSteps_eq (d : Device) : d.streamSteps = d.switchSteps ++ d.muxSteps := rfl

variable {d : Device} {source : ProgramSource} {dir : String} {addresses : AddressSource}

theorem script_eq : d.script source dir addresses =
    d.tileSteps source dir ++ (d.switchSteps ++ d.muxSteps) ++ d.dmaSteps addresses := rfl

theorem completes_tileSteps_of_script (hs : (d.script source dir addresses).Completes) :
    (d.tileSteps source dir).Completes := by
  rw [script_eq, Script.completes_append, Script.completes_append] at hs
  exact hs.1.1

theorem configure_eq_ok_iff {log : WriteLog} {diags : List Diagnostic} :
    d.configure source dir addresses = .ok (log, diags) ↔
      (d.script source dir addresses).Completes ∧
        log = (d.script source dir addresses).applyTo .empty ∧
        diags = (d.script source dir addresses).diagnostics := by
  simp only [configure, Script.Completes]
  cases (d.script source dir addresses).stop? with
  | some stop => simp
  | none => simp [eq_comm]

/-- A run that has a report is complete, and the report is about its log and its diagnostics. -/
theorem configure_of_compile {r : Report} (hc : d.compile source dir addresses = .ok r) :
    ∃ log, d.configure source dir addresses = .ok (log, r.diagnostics) ∧
      log.sections = .ok r.sections := by
  unfold compile at hc
  cases hconf : d.configure source dir addresses with
  | error stop =>
    rw [hconf] at hc
    cases hc
  | ok result =>
    obtain ⟨log, diags⟩ := result
    simp only [hconf] at hc
    cases hsec : log.sections with
    | error f =>
      simp only [hsec] at hc
      cases hc
    | ok sections =>
      simp only [hsec] at hc
      cases hc
      exact ⟨log, rfl, hsec⟩

end Device
end ArrayImage
