import ArrayImage.Proofs.Reset

/-!
# ArrayImage.Proofs.Containment

Where the words of a program can be.

A program that is accepted stays in the window of its tile, and a segment stays in the memory that
it is for exactly when it ends there (`Segment.places_contained_iff`): only the start of a data
segment is wrapped, and the length of a segment is held against the window alone. So it depends on
the programs whether the registers behind the memories are left alone. `programs_contained` says
that they are when every segment ends in its memory, for one program and for the tile phase.
-/

namespace ArrayImage

open RegisterMap

/-! ## Memories -/

def Region.Contains (r : Region) (o : Nat) : Prop :=
  r.base ≤ o ∧ o + 4 ≤ r.base + r.size

/-- The word at this place lies in one of the memories of a compute tile. -/
def InMemory (o : Nat) : Prop :=
  programMemory.Contains o ∨ dataMemory.Contains o

namespace Segment

def memory (s : Segment) : Region :=
  if s.executable then programMemory else dataMemory

def start (s : Segment) : Nat :=
  if s.executable then s.address.toNat else s.address.toNat % dataMemory.size

/-- The words of a segment end in its memory. -/
def FitsMemory (s : Segment) : Prop :=
  s.data = [] ∨ s.start + 4 * s.wordCount ≤ s.memory.size

variable {s : Segment}

theorem destination_eq {dest : Nat} (h : s.destination = .ok dest) :
    dest = s.memory.base + s.start := by
  unfold destination at h
  unfold memory start
  split at h
  · rename_i hx
    rw [if_pos hx, if_pos hx]
    exact (checkedAdd_eq_ok h).1
  · rename_i hx
    rw [if_neg hx, if_neg hx]
    cases h
    rfl

theorem places_iff {dest : Nat} (h : s.destination = .ok dest) {o : Nat} :
    s.Places o ↔ ∃ i < s.wordCount, o = s.memory.base + s.start + 4 * i := by
  rw [← destination_eq h]
  constructor
  · rintro ⟨dest', hd, hi⟩
    rw [h] at hd
    cases hd
    exact hi
  · intro hi
    exact ⟨dest, h, hi⟩

theorem wordCount_eq_zero_iff : s.wordCount = 0 ↔ s.data = [] := by
  rw [← List.length_eq_zero_iff, wordCount]
  omega

/-- A segment is in its memory as a whole or its last word is not. -/
theorem places_contained_iff (h : s.verdict = .fits) :
    (∀ o, s.Places o → s.memory.Contains o) ↔ s.FitsMemory := by
  obtain ⟨dest, hd, -⟩ := verdict_eq_fits h
  simp only [places_iff hd, Region.Contains, FitsMemory]
  constructor
  · intro hall
    by_cases hw : s.wordCount = 0
    · exact .inl (wordCount_eq_zero_iff.mp hw)
    · have hlast := (hall _ ⟨s.wordCount - 1, by omega, rfl⟩).2
      exact .inr (by omega)
  · rintro hfits _ ⟨i, hi, rfl⟩
    rcases hfits with hnil | hle
    · rw [wordCount_eq_zero_iff.mpr hnil] at hi
      omega
    · omega

theorem inMemory_of_contains {o : Nat} (h : s.memory.Contains o) : InMemory o := by
  unfold memory at h
  split at h
  · exact .inl h
  · exact .inr h

theorem allWrites_placeSteps (t : TileId) (s : Segment) :
    Script.AllWrites (fun w => w.register.tile = t ∧ s.Places w.register.offset ∧
      ∃ v, w.update = .put v) (s.placeSteps t) := by
  intro w hw
  unfold placeSteps at hw
  cases hd : s.destination with
  | error f =>
    rw [hd] at hw
    cases List.mem_singleton.mp hw
  | ok dest =>
    rw [hd] at hw
    obtain ⟨i, hi, hput⟩ := List.mem_mapIdx.mp hw
    obtain ⟨ht, ho, hu⟩ := Step.eq_of_put_eq_write hput
    rw [length_wordsOfBytes, ← wordCount] at hi
    exact ⟨ht, ⟨dest, hd, i, hi, ho⟩, _, hu⟩

end Segment

/-! ## One program -/

namespace ProgramImage

variable {t : TileId} {p : ProgramImage} {steps : Script}

/-- Only a program that fits has steps that run to their end. -/
theorem placeSteps_eq_ok (h : p.placeSteps t = .ok steps) (hs : steps.Completes) :
    p.verdict = .fits ∧ steps = p.segments.flatMap (Segment.placeSteps t) := by
  unfold placeSteps at h
  split at h
  · cases h
    exact ⟨‹_›, rfl⟩
  · cases h
  · cases h
    exact absurd hs (Script.not_completes_fault _)

/-- What the accepted program `p` does on the tile `t`. -/
structure Contained (t : TileId) (p : ProgramImage) (steps : Script) : Prop where
  /-- The words of the segments are written, and nothing else. -/
  writes : ∀ a, steps.Touches a ↔ ∃ s ∈ p.segments, ∃ o, s.Places o ∧ a = t.address o
  /-- They lie in the window. -/
  window : ∀ s ∈ p.segments, ∀ o, s.Places o → s.memory.base ≤ o ∧ o + 4 ≤ windowSize
  /-- A segment is in its memory when it ends there. -/
  memory_iff : ∀ s ∈ p.segments, (∀ o, s.Places o → s.memory.Contains o) ↔ s.FitsMemory
  /-- Then all registers behind the memories are what they were, and those of other tiles too. -/
  unchanged : (∀ s ∈ p.segments, s.FitsMemory) → ∀ (log : WriteLog) (u : TileId) (o : Nat),
    o < windowSize → (u = t → ¬ InMemory o) →
    (steps.applyTo log).get? (u.address o) = log.get? (u.address o)

theorem contained_placeSteps (h : p.placeSteps t = .ok steps) (hs : steps.Completes) :
    p.Contained t steps := by
  obtain ⟨hv, rfl⟩ := placeSteps_eq_ok h hs
  have hfits := verdict_eq_fits hv
  constructor
  · intro a
    exact touches_placeSteps hs
  · intro s hm o ho
    refine ⟨?_, ho.bound (hfits s hm)⟩
    obtain ⟨dest, hd, i, hi, rfl⟩ := ho
    rw [Segment.destination_eq hd]
    omega
  · intro s hm
    exact Segment.places_contained_iff (hfits s hm)
  · intro hmem log u o ho hout
    refine Script.get?_applyTo_of_not_written hs ?_
    intro w hw hwa
    obtain ⟨s, hm, hws⟩ := List.mem_flatMap.mp hw
    obtain ⟨ht, hplace, -⟩ := Segment.allWrites_placeSteps t s w hws
    obtain ⟨hu, hwo⟩ := (TileId.address_inj w.register.offset_lt ho).mp hwa
    have hin := (Segment.places_contained_iff (hfits s hm)).mpr (hmem s hm) _ hplace
    rw [hwo] at hin
    exact hout (hu ▸ ht) (Segment.inMemory_of_contains hin)

end ProgramImage

/-! ## The tile phase -/

/-- An address at which only one word is ever put holds it, or was not written. -/
theorem Script.get?_applyTo_of_const {s : Script} (hs : s.Completes) {log : WriteLog} {a : Nat}
    {v : Word} (h : AllWrites (fun w => w.address = a → w.update = .put v) s) :
    (s.Touches a → (s.applyTo log).get? a = some v) ∧
      (¬ s.Touches a → (s.applyTo log).get? a = log.get? a) := by
  constructor
  · rintro ⟨w, hw, hwa⟩
    have hword : ∀ x ∈ s.filterMap (Step.wordAt? a), x = v := by
      intro x hx
      obtain ⟨step, hstep, hsx⟩ := List.mem_filterMap.mp hx
      cases step with
      | write u =>
        rw [Step.wordAt?_write] at hsx
        by_cases hua : u.address = a
        · rw [Write.wordAt?_of_put hua (h u hstep hua)] at hsx
          exact (Option.some.inj hsx).symm
        · rw [Write.wordAt?_of_ne hua] at hsx
          cases hsx
      | _ => cases hsx
    rw [get?_applyTo_of_puts hs fun u hu hua => ⟨v, h u hu hua⟩, lastWord?]
    cases hlast : (s.filterMap (Step.wordAt? a)).getLast? with
    | some x => rw [hword x (List.mem_of_getLast? hlast), Option.some_or]
    | none =>
      have hnone := List.filterMap_eq_nil_iff.mp (List.getLast?_eq_none_iff.mp hlast) _ hw
      rw [Step.wordAt?_write, Write.wordAt?_of_put hwa (h w hw hwa)] at hnone
      cases hnone
  · intro hnot
    exact get?_applyTo_of_not_written hs fun w hw hwa => hnot ⟨w, hw, hwa⟩

/-- The program of a tile is read and accepted. -/
def Tile.HasProgram (source : ProgramSource) (dir : String) (x : Tile) (image : ProgramImage) :
    Prop :=
  ∃ core, x.core = some core ∧
    source (programPath dir x.column x.row core.programFile) = .ok image ∧ image.verdict = .fits

theorem Tile.HasProgram.verdict_eq {source : ProgramSource} {dir : String} {x : Tile}
    {image : ProgramImage} (h : x.HasProgram source dir image) {s : Segment}
    (hs : s ∈ image.segments) : s.verdict = .fits := by
  obtain ⟨_, -, -, hfits⟩ := h
  exact ProgramImage.verdict_eq_fits hfits s hs

theorem Tile.programPlaces_iff {source : ProgramSource} {dir : String} {x : Tile} {o : Nat} :
    x.ProgramPlaces source dir o ↔
      ∃ image, x.HasProgram source dir image ∧ ∃ s ∈ image.segments, s.Places o := by
  constructor
  · rintro ⟨core, hcore, image, hread, hfits, hplace⟩
    exact ⟨image, ⟨core, hcore, hread, hfits⟩, hplace⟩
  · rintro ⟨image, ⟨core, hcore, hread, hfits⟩, hplace⟩
    exact ⟨core, hcore, image, hread, hfits, hplace⟩

/-- A write is to a memory or it clears a register. -/
def Write.Clears (w : Write) : Prop :=
  InMemory w.register.offset ∨ w.update = .put 0

theorem allWrites_clearSteps (t : TileId) (regions : List Region) :
    Script.AllWrites Write.Clears (clearSteps t regions) := by
  rw [clearSteps, Script.allWrites_flatMap]
  intro r _ w hw
  simp only [Script.clear] at hw
  split at hw
  · cases List.mem_singleton.mp hw
  · split at hw
    · cases List.mem_singleton.mp hw
    · split at hw
      · cases List.mem_singleton.mp hw
      · obtain ⟨i, -, hput⟩ := List.mem_map.mp hw
        exact .inr (Step.eq_of_put_eq_write hput).2.2

namespace Device

/-- The segments of all programs that are accepted end in their memories. -/
def ProgramsFit (d : Device) (source : ProgramSource) (dir : String) : Prop :=
  ∀ x ∈ d.tiles, x.kind = .compute → ∀ image, x.HasProgram source dir image →
    ∀ s ∈ image.segments, s.FitsMemory

variable {d : Device} {source : ProgramSource} {dir : String}

theorem allWrites_loadSteps {t : TileId} {x : Tile}
    (h : ∀ image, x.HasProgram source dir image → ∀ s ∈ image.segments, s.FitsMemory) :
    Script.AllWrites Write.Clears (loadSteps source dir t x) := by
  have hremarks : ∀ image : ProgramImage, Script.AllWrites Write.Clears (image.remarks t) := by
    intro image
    unfold ProgramImage.remarks
    split <;> simp
  have hfailed : ∀ path cause, Script.AllWrites Write.Clears (loadSteps.failed t path cause) := by
    intro path cause
    unfold loadSteps.failed
    split <;> simp
  have hloads := x.loads_loadSteps source dir t
  generalize loadSteps source dir t x = steps at hloads ⊢
  cases hloads with
  | absent => exact Script.allWrites_nil
  | unread => exact hfailed _ _
  | rejected => exact Script.allWrites_append.mpr ⟨hremarks _, hfailed _ _⟩
  | broken => exact Script.allWrites_append.mpr ⟨hremarks _, by simp⟩
  | placed core_eq read fits =>
    refine Script.allWrites_append.mpr ⟨hremarks _, Script.allWrites_flatMap.mpr ?_⟩
    intro s hs w hw
    have hprog : x.HasProgram source dir _ := ⟨_, core_eq, read, fits⟩
    have hplace := (s.allWrites_placeSteps t w hw).2.1
    have hmem := (Segment.places_contained_iff (hprog.verdict_eq hs)).mpr (h _ hprog s hs)
    exact .inl (Segment.inMemory_of_contains (hmem _ hplace))

theorem allWrites_tileSteps (h : d.ProgramsFit source dir) :
    Script.AllWrites Write.Clears (d.tileSteps source dir) := by
  rw [tileSteps, Script.allWrites_flatMap]
  intro x hx
  rw [Tile.setupSteps_eq]
  refine Script.allWrites_onTile fun t _ => ?_
  by_cases hk : x.kind = .compute
  · rw [Tile.stepsOn_compute hk, Script.allWrites_append]
    exact ⟨allWrites_clearSteps t _, allWrites_loadSteps (h x hx hk)⟩
  · rw [Tile.stepsOn_shim hk]
    exact allWrites_clearSteps t _

/-- What the tile phase makes of the registers behind the memories. -/
structure Quiet (d : Device) (log log' : WriteLog) : Prop where
  /-- What a declared tile is cleared of holds zero. -/
  cleared : ∀ x ∈ d.tiles, ∀ t, d.locate x.column x.row = .ok t → ∀ r ∈ x.kind.resetRegions,
    ∀ o ∈ r.words, ¬ InMemory o → log'.get? (t.address o) = some 0
  /-- The others are what they were. -/
  unchanged : ∀ (t : TileId) (o : Nat), o < windowSize → ¬ InMemory o →
    (∀ x ∈ d.tiles, d.locate x.column x.row = .ok t → ∀ r ∈ x.kind.resetRegions, o ∉ r.words) →
    log'.get? (t.address o) = log.get? (t.address o)
  /-- So what reads zero stays zero, cleared or not. -/
  zero : ∀ (t : TileId) (o : Nat), o < windowSize → ¬ InMemory o → log.read t o = 0 →
    log'.read t o = 0

theorem inMemory_of_programPlaces (h : d.ProgramsFit source dir) {x : Tile} (hx : x ∈ d.tiles)
    (hk : x.kind = .compute) {o : Nat} (ho : x.ProgramPlaces source dir o) : InMemory o := by
  obtain ⟨image, hprog, s, hs, hplace⟩ := Tile.programPlaces_iff.mp ho
  have hmem := (Segment.places_contained_iff (hprog.verdict_eq hs)).mpr (h x hx hk image hprog s hs)
  exact Segment.inMemory_of_contains (hmem o hplace)

theorem touches_tileSteps_of_not_inMemory (hs : (d.tileSteps source dir).Completes)
    (h : d.ProgramsFit source dir) {t : TileId} {o : Nat} (ho : o < windowSize)
    (hout : ¬ InMemory o) : (d.tileSteps source dir).Touches (t.address o) ↔
      ∃ x ∈ d.tiles, d.locate x.column x.row = .ok t ∧ ∃ r ∈ x.kind.resetRegions, o ∈ r.words := by
  rw [touches_tileSteps_iff hs]
  constructor
  · rintro ⟨x, hx, u, hu, ⟨r, hr, p, hp, ha⟩ | ⟨hk, p, hp, ha⟩⟩
    · obtain ⟨-, -, hle⟩ := x.kind.resetRegions_bounds r hr
      have hpr := (Region.bounds_of_mem_words hp).2
      obtain ⟨rfl, rfl⟩ := (TileId.address_inj ho (by omega)).mp ha
      exact ⟨x, hx, hu, r, hr, hp⟩
    · obtain ⟨image, hprog, s, hm, hplace⟩ := Tile.programPlaces_iff.mp hp
      have hpw := hplace.bound (hprog.verdict_eq hm)
      obtain ⟨rfl, rfl⟩ := (TileId.address_inj ho (by omega)).mp ha
      exact absurd (inMemory_of_programPlaces h hx hk hp) hout
  · rintro ⟨x, hx, hu, r, hr, hp⟩
    exact ⟨x, hx, t, hu, .inl ⟨r, hr, o, hp, rfl⟩⟩

theorem quiet_tileSteps (hs : (d.tileSteps source dir).Completes) (h : d.ProgramsFit source dir)
    (log : WriteLog) : d.Quiet log ((d.tileSteps source dir).applyTo log) := by
  -- outside the memories all words that are written are the same, so their order does not matter
  have hconst : ∀ (t : TileId) (o : Nat), o < windowSize → ¬ InMemory o →
      Script.AllWrites (fun w => w.address = t.address o → w.update = .put 0)
        (d.tileSteps source dir) := by
    intro t o ho hout w hw hwa
    have hwo := ((TileId.address_inj w.register.offset_lt ho).mp hwa).2
    exact (allWrites_tileSteps h w hw).resolve_left (hwo ▸ hout)
  have hcleared : ∀ (t : TileId) (o : Nat), o < windowSize → ¬ InMemory o →
      (∃ x ∈ d.tiles, d.locate x.column x.row = .ok t ∧ ∃ r ∈ x.kind.resetRegions, o ∈ r.words) →
      ((d.tileSteps source dir).applyTo log).get? (t.address o) = some 0 := by
    intro t o ho hout hx
    exact (Script.get?_applyTo_of_const hs (hconst t o ho hout)).1
      ((touches_tileSteps_of_not_inMemory hs h ho hout).mpr hx)
  have hunchanged : ∀ (t : TileId) (o : Nat), o < windowSize → ¬ InMemory o →
      (¬ ∃ x ∈ d.tiles, d.locate x.column x.row = .ok t ∧ ∃ r ∈ x.kind.resetRegions, o ∈ r.words) →
      ((d.tileSteps source dir).applyTo log).get? (t.address o) = log.get? (t.address o) := by
    intro t o ho hout hx
    exact (Script.get?_applyTo_of_const hs (hconst t o ho hout)).2
      (mt (touches_tileSteps_of_not_inMemory hs h ho hout).mp hx)
  constructor
  · intro x hx t ht r hr o hp hout
    obtain ⟨-, -, hle⟩ := x.kind.resetRegions_bounds r hr
    have hpr := (Region.bounds_of_mem_words hp).2
    exact hcleared t o (by omega) hout ⟨x, hx, ht, r, hr, hp⟩
  · rintro t o ho hout hnone
    refine hunchanged t o ho hout ?_
    rintro ⟨x, hx, ht, r, hr, hp⟩
    exact hnone x hx ht r hr hp
  · intro t o ho hout hzero
    rw [WriteLog.read, WriteLog.wordAt] at hzero ⊢
    by_cases hx : ∃ x ∈ d.tiles, d.locate x.column x.row = .ok t ∧
        ∃ r ∈ x.kind.resetRegions, o ∈ r.words
    · rw [hcleared t o ho hout hx]
      rfl
    · rw [hunchanged t o ho hout hx, hzero]

end Device

/-! ## Both -/

/-- Where the words of accepted programs are, and what they leave alone. -/
theorem programs_contained :
    (∀ (t : TileId) (p : ProgramImage) (steps : Script), p.placeSteps t = .ok steps →
      steps.Completes → p.Contained t steps) ∧
    ∀ (d : Device) (source : ProgramSource) (dir : String),
      (d.tileSteps source dir).Completes → d.ProgramsFit source dir →
      ∀ log, d.Quiet log ((d.tileSteps source dir).applyTo log) := by
  constructor
  · intro t p steps h hs
    exact ProgramImage.contained_placeSteps h hs
  · intro d source dir hs h log
    exact Device.quiet_tileSteps hs h log

def oneCore : Device where
  schemaVersion := "1.0"
  name := "one"
  arrayOffset := 0
  tiles := [⟨3, 1, none, some ⟨none⟩⟩]
  buffers := []
  locks := []
  memories := []
  switchboxes := []
  shimMuxes := []

def coreTile : TileId :=
  oneCore.sampleTile (Nat.le_of_ble_eq_true rfl)

def edgeProgram : ProgramImage where
  segments := [⟨0x3FF8, true, [1, 2, 3, 4, 5]⟩, ⟨0xFFFC, false, [6, 7, 8, 9]⟩, ⟨0x7FFF, false, []⟩]

/-- A program that goes on behind its memories: into the master registers of the stream switch, and
behind the last word of data memory. -/
def longProgram : ProgramImage where
  segments := [⟨0x1F000, true, [1, 0, 0, 0x80]⟩, ⟨0x7FFC, false, [1, 2, 3, 4, 5]⟩]

theorem completes_oneCore {source : ProgramSource} {p : ProgramImage}
    (hp : ∀ path, source path = .ok p) (hv : p.verdict = .fits) :
    (oneCore.tileSteps source ".").Completes := by
  have hvalid : oneCore.Valid := Device.valid_of_issues (by decide +kernel)
  refine Device.completes_tileSteps_of_loads hvalid (by decide) fun x _ _ => ?_
  constructor
  · intro core cause _ h
    rw [hp] at h
    cases h
  · intro core image _ h s hs f hf
    rw [hp] at h
    cases h
    rw [ProgramImage.verdict_eq_fits hv s hs] at hf
    cases hf

theorem edgeProgram_contained :
    (∃ steps, edgeProgram.placeSteps coreTile = .ok steps ∧ steps.Completes ∧
      edgeProgram.Contained coreTile steps) ∧
    ((oneCore.tileSteps (fun _ => .ok edgeProgram) ".").Completes ∧
      oneCore.ProgramsFit (fun _ => .ok edgeProgram) "." ∧
      oneCore.Quiet .empty ((oneCore.tileSteps (fun _ => .ok edgeProgram) ".").applyTo .empty)) := by
  have hsteps : Script.Completes (edgeProgram.segments.flatMap (Segment.placeSteps coreTile)) := by
    unfold Script.Completes
    decide
  have hfit : oneCore.ProgramsFit (fun _ => .ok edgeProgram) "." := by
    rintro x - - image ⟨core, -, h, -⟩
    cases h
    simp only [Segment.FitsMemory]
    decide
  have hs := completes_oneCore (p := edgeProgram) (fun _ => rfl) rfl
  exact ⟨⟨_, rfl, hsteps, programs_contained.1 _ _ _ rfl hsteps⟩, hs, hfit,
    programs_contained.2 _ _ _ hs hfit .empty⟩

/-- Accepted programs can be anywhere in the window, and what they write to the registers of the
stream switch stays there. -/
theorem longProgram_not_contained :
    (∃ steps, longProgram.placeSteps coreTile = .ok steps ∧ steps.Completes ∧
      ¬ (∀ s ∈ longProgram.segments, ∀ o, s.Places o → s.memory.Contains o) ∧
      steps.Touches (coreTile.address 0x8000) ∧
      ∀ log, (steps.applyTo log).read coreTile (masterOffset 0) = 0x80000001) ∧
    (oneCore.tileSteps (fun _ => .ok longProgram) ".").Completes ∧
      ((oneCore.tileSteps (fun _ => .ok longProgram) ".").applyTo .empty).read coreTile
        (masterOffset 0) = 0x80000001 := by
  have hsteps : Script.Completes (longProgram.segments.flatMap (Segment.placeSteps coreTile)) := by
    unfold Script.Completes
    decide
  have hread : ∀ log, (Script.applyTo (longProgram.segments.flatMap
      (Segment.placeSteps coreTile)) log).read coreTile (masterOffset 0) = 0x80000001 := by
    intro log
    rw [WriteLog.read, WriteLog.wordAt, Script.get?_applyTo_of_puts hsteps]
    · rfl
    · intro w hw _
      obtain ⟨s, -, hws⟩ := List.mem_flatMap.mp hw
      exact (s.allWrites_placeSteps _ w hws).2.2
  have hs := completes_oneCore (p := longProgram) (fun _ => rfl) rfl
  refine ⟨⟨_, rfl, hsteps, ?_, ?_, hread⟩, hs, ?_⟩
  · intro h
    have hout := (h _ List.mem_cons_self 0x3F000 ⟨0x3F000, rfl, 0, by decide, rfl⟩).2
    exact absurd hout (by decide)
  · rw [ProgramImage.touches_placeSteps hsteps]
    exact ⟨_, List.mem_cons_of_mem _ List.mem_cons_self, 0x8000, ⟨0x7FFC, rfl, 1, by decide, rfl⟩,
      rfl⟩
  · have htile : oneCore.tileSteps (fun _ => .ok longProgram) "." =
        clearSteps coreTile computeRegions ++
          longProgram.segments.flatMap (Segment.placeSteps coreTile) :=
      List.flatMap_singleton _ _
    rw [htile] at hs ⊢
    rw [Script.applyTo_append hs]
    exact hread _

end ArrayImage
