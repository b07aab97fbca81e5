import ArrayImage.Proofs.Locality
import ArrayImage.Proofs.Reset

/-!
# ArrayImage.Proofs.Recovery

A program that cannot be loaded costs a diagnostic and nothing else.

Up to the steps that load it, the script of a design is the script of the design without that core
(`tileSteps_withoutCore`), and a program that is not loaded has one step that counts, the report.
So a run that gets past it leaves the log that the other run leaves (`configure_withoutCore`).
-/

namespace ArrayImage

namespace Script

/-- The steps do nothing that can be seen from outside. -/
structure Silent (s : Script) : Prop where
  writes : s.filterMap Step.write? = []
  diagnostics : s.filterMap Step.diagnostic? = []

/-- What a run is without one report, and without some steps before the report that do nothing. -/
theorem without_report {a q b : Script} {t : TileId} {p : Problem} (hq : q.Silent)
    (hs : Completes (a ++ (q ++ [.report t p]) ++ b)) (log : WriteLog) :
    Completes (a ++ b) ∧ Script.applyTo (a ++ b) log =
        Script.applyTo (a ++ (q ++ [.report t p]) ++ b) log ∧
      ∃ before after, Script.diagnostics (a ++ (q ++ [.report t p]) ++ b) =
          before ++ p.on t :: after ∧
        Script.diagnostics (a ++ b) = before ++ after := by
  have hab : Completes (a ++ b) := by
    simp only [completes_append] at hs ⊢
    exact ⟨hs.1.1, hs.2⟩
  refine ⟨hab, ?_, a.filterMap Step.diagnostic?, b.filterMap Step.diagnostic?, ?_, ?_⟩
  · rw [applyTo, applyTo, hab.writes_eq, hs.writes_eq]
    simp [List.filterMap_cons, hq.writes, Step.write?]
  · rw [hs.diagnostics_eq]
    simp [hq.diagnostics, Step.diagnostic?]
  · rw [hab.diagnostics_eq, List.filterMap_append]

end Script

theorem ProgramImage.silent_remarks (t : TileId) (p : ProgramImage) :
    Script.Silent (p.remarks t) := by
  unfold remarks
  split
  · exact ⟨rfl, rfl⟩
  · exact ⟨rfl, rfl⟩

namespace Tile

/-- The core of a tile has a program that cannot be loaded. -/
inductive LoadFails (source : ProgramSource) (dir : String) (x : Tile) :
    String → LoadError → Prop where
  /-- There is no program in the file. -/
  | unread {core : Core} {cause : LoadError} (core_eq : x.core = some core)
    (unread : source (programPath dir x.column x.row core.programFile) = .error cause) :
    LoadFails source dir x (programPath dir x.column x.row core.programFile) cause
  /-- A segment is rejected, and those before it are not. -/
  | rejected {core : Core} {image : ProgramImage} {before after : List Segment} {s : Segment}
    {cause : LoadError} (core_eq : x.core = some core)
    (read : source (programPath dir x.column x.row core.programFile) = .ok image)
    (segments : image.segments = before ++ s :: after)
    (fit : ∀ r ∈ before, r.verdict = .fits) (rejected : s.verdict = .rejected cause) :
    LoadFails source dir x (programPath dir x.column x.row core.programFile) cause

def dropCore (x : Tile) : Tile :=
  { x with core := none }

end Tile

/-- The first segment that is rejected decides. -/
theorem ProgramImage.verdict_of_rejected {p : ProgramImage} {before after : List Segment}
    {s : Segment} {cause : LoadError} (h : p.segments = before ++ s :: after)
    (hfit : ∀ r ∈ before, r.verdict = .fits) (hs : s.verdict = .rejected cause) :
    p.verdict = .rejected cause := by
  obtain ⟨segments⟩ := p
  subst h
  rw [verdict]
  induction before with
  | nil => simp only [List.nil_append, verdict.go, hs]
  | cons r before ih =>
    obtain ⟨hr, hbefore⟩ := List.forall_mem_cons.mp hfit
    simp only [List.cons_append, verdict.go, hr]
    exact ih hbefore

theorem Tile.LoadFails.exists_failed {source : ProgramSource} {dir : String} {x : Tile}
    {path : String} {cause : LoadError} (h : x.LoadFails source dir path cause) (t : TileId) :
    ∃ q : Script, q.Silent ∧ loadSteps source dir t x = q ++ loadSteps.failed t path cause := by
  cases h with
  | unread core_eq unread =>
    refine ⟨[], ⟨rfl, rfl⟩, ?_⟩
    simp only [loadSteps, core_eq, unread, List.nil_append]
  | @rejected core image before after s cause core_eq read segments fit rejected =>
    refine ⟨image.remarks t, image.silent_remarks t, ?_⟩
    have hv := ProgramImage.verdict_of_rejected segments fit rejected
    simp only [loadSteps, core_eq, read, ProgramImage.placeSteps, hv]
    rfl

/-- A failure that a run gets past is reported. -/
theorem loadSteps.failed_eq {t : TileId} {path : String} {cause : LoadError}
    (h : (failed t path cause).Completes) :
    cause.isFatal = false ∧ failed t path cause = [.report t (.programLoad path cause)] := by
  unfold failed at h ⊢
  cases hcause : cause.isFatal with
  | true =>
    rw [if_pos hcause] at h
    cases h
  | false => exact ⟨rfl, if_neg Bool.false_ne_true⟩

namespace Device

def withoutCore (d : Device) (i : Nat) : Device :=
  { d with tiles := d.tiles.modify i Tile.dropCore }

variable {d : Device} {source : ProgramSource} {dir : String} {addresses : AddressSource}

theorem dmaSteps_withoutCore (d : Device) (i : Nat) (addresses : AddressSource) :
    (d.withoutCore i).dmaSteps addresses = d.dmaSteps addresses := by
  simp only [dmaSteps, MemoryDma.steps_congr (e := d.withoutCore i) (d := d) rfl rfl]
  rfl

theorem setupSteps_dropCore {x : Tile} {t : TileId} {array : Nat} (hk : x.kind = .compute)
    (ht : TileId.at? array x.column.toNat x.row.toNat = .ok t) :
    x.setupSteps source dir array =
        x.dropCore.setupSteps source dir array ++ loadSteps source dir t x := by
  have hdrop : x.dropCore.setupSteps source dir array = clearSteps t x.kind.resetRegions := by
    rw [Tile.setupSteps_eq]
    refine (Script.onTile_eq ht _).trans ?_
    rw [Tile.stepsOn_compute (x := x.dropCore) hk]
    exact List.append_nil _
  rw [hdrop, Tile.setupSteps_eq, Script.onTile_eq ht, Tile.stepsOn_compute hk]

theorem tiles_withoutCore {i : Nat} {x : Tile} (hx : d.tiles[i]? = some x) :
    ∃ before after, d.tiles = before ++ x :: after ∧
      (d.withoutCore i).tiles = before ++ x.dropCore :: after := by
  obtain ⟨hi, rfl⟩ := List.getElem?_eq_some_iff.mp hx
  refine ⟨d.tiles.take i, d.tiles.drop (i + 1), ?_, List.modify_eq_take_cons_drop hi⟩
  simp

/-- What the script of a design has more than the one without a core are the steps that load it. -/
theorem script_withoutCore {i : Nat} {x : Tile} (hx : d.tiles[i]? = some x)
    (hk : x.kind = .compute) (hs : (d.script source dir addresses).Completes) :
    ∃ t a b, d.locate x.column x.row = .ok t ∧
      d.script source dir addresses = a ++ loadSteps source dir t x ++ b ∧
      (d.withoutCore i).script source dir addresses = a ++ b := by
  obtain ⟨before, after, htiles, hwithout⟩ := tiles_withoutCore hx
  have hsetup := Script.completes_flatMap.mp (completes_tileSteps_of_script hs) x
    (List.mem_of_getElem? hx)
  rw [Tile.setupSteps_eq, Script.completes_onTile] at hsetup
  obtain ⟨t, ht, -⟩ := hsetup
  let setup := Tile.setupSteps source dir d.arrayOffset.toNat
  refine ⟨t, before.flatMap setup ++ setup x.dropCore,
    after.flatMap setup ++ (d.streamSteps ++ d.dmaSteps addresses), ht, ?_, ?_⟩
  · have hsplit : d.tileSteps source dir =
        before.flatMap setup ++ (setup x ++ after.flatMap setup) := by
      rw [tileSteps, htiles, List.flatMap_append, List.flatMap_cons]
    rw [script, hsplit, show setup x = _ from setupSteps_dropCore hk ht]
    simp only [List.append_assoc]
    rfl
  · have hsplit : (d.withoutCore i).tileSteps source dir =
        before.flatMap setup ++ (setup x.dropCore ++ after.flatMap setup) := by
      rw [tileSteps, hwithout, List.flatMap_append, List.flatMap_cons]
      rfl
    rw [script, hsplit, dmaSteps_withoutCore]
    simp only [List.append_assoc]
    rfl

/-- A program that cannot be loaded has a diagnostic of its own. Without the core, the run has the
same log and all other diagnostics in the same order. -/
theorem configure_withoutCore {i : Nat} {x : Tile} {path : String} {cause : LoadError}
    {log : WriteLog} {diags : List Diagnostic}
    (h : d.configure source dir addresses = .ok (log, diags)) (hx : d.tiles[i]? = some x)
    (hk : x.kind = .compute) (hf : x.LoadFails source dir path cause) :
    cause.isFatal = false ∧ ∃ t before after, d.locate x.column x.row = .ok t ∧
      diags = before ++ (Problem.programLoad path cause).on t :: after ∧
      (d.withoutCore i).configure source dir addresses = .ok (log, before ++ after) := by
  obtain ⟨hs, rfl, rfl⟩ := configure_eq_ok_iff.mp h
  obtain ⟨t, a, b, ht, hscript, hwithout⟩ := script_withoutCore hx hk hs
  obtain ⟨q, hq, hload⟩ := hf.exists_failed t
  rw [hscript, hload] at hs ⊢
  have hfailed : (loadSteps.failed t path cause).Completes := by
    simp only [Script.completes_append] at hs
    exact hs.1.2.2
  obtain ⟨hfatal, heq⟩ := loadSteps.failed_eq hfailed
  rw [heq] at hs ⊢
  obtain ⟨hab, hlog, before, after, hdiags, hrest⟩ := Script.without_report hq hs .empty
  refine ⟨hfatal, t, before, after, ht, hdiags, ?_⟩
  rw [← hwithout] at hab hlog hrest
  exact configure_eq_ok_iff.mpr ⟨hab, hlog.symm, hrest.symm⟩

/-- Three cores, the program of one too long from its second segment on, that of another one not
there, with a route and a DMA program on their tiles. -/
def patchy : Device where
  schemaVersion := "1.0"
  name := "patchy"
  arrayOffset := 0
  tiles := [⟨3, 0, none, none⟩, ⟨3, 1, none, some ⟨some "long.elf"⟩⟩,
    ⟨3, 2, none, some ⟨some "gone.elf"⟩⟩, ⟨3, 3, none, some ⟨some "fine.elf"⟩⟩]
  buffers := [⟨"in", 3, 1, some 0x1000, 32⟩]
  locks := []
  memories := [⟨3, 1, [⟨"fill", [⟨"in", .a, 0, 16⟩], [], none, none⟩], [⟨.s2mm, 0, "fill"⟩]⟩]
  switchboxes := [⟨3, 2, [⟨⟨.south, 0⟩, ⟨.dma, 0⟩⟩], [], [], []⟩]
  shimMuxes := []

def longProgramFile : ProgramImage where
  segments := [⟨0, true, [1, 2, 3, 4]⟩, ⟨0x20000, true, [5]⟩]

def fineProgramFile : ProgramImage where
  segments := [⟨0x10, false, [6, 7]⟩]

def patchyPrograms : ProgramSource := fun path =>
  if path = "./long.elf" then .ok longProgramFile
  else if path = "./fine.elf" then .ok fineProgramFile
  else .error (.unreadable path)

theorem patchyPrograms_cases (path : String) : patchyPrograms path = .ok longProgramFile ∨
    patchyPrograms path = .ok fineProgramFile ∨
    patchyPrograms path = .error (.unreadable path) := by
  unfold patchyPrograms
  split
  · exact .inl rfl
  · split
    · exact .inr (.inl rfl)
    · exact .inr (.inr rfl)

theorem patchy_loadable (x : Tile) : x.Loadable patchyPrograms "." := by
  have hlong : ∀ s ∈ longProgramFile.segments, ∀ f, s.verdict ≠ .broken f := by
    intro s hs f hf
    rcases List.mem_cons.mp hs with rfl | hs
    · cases hf
    · rw [List.mem_singleton.mp hs] at hf
      cases hf
  have hfine : ∀ s ∈ fineProgramFile.segments, ∀ f, s.verdict ≠ .broken f := by
    intro s hs f hf
    rw [List.mem_singleton.mp hs] at hf
    cases hf
  constructor
  · intro core cause _ h
    rcases patchyPrograms_cases (programPath "." x.column x.row core.programFile) with hp | hp | hp
    · rw [hp] at h
      cases h
    · rw [hp] at h
      cases h
    · rw [hp] at h
      cases h
      rfl
  · intro core image _ h
    rcases patchyPrograms_cases (programPath "." x.column x.row core.programFile) with hp | hp | hp
    · rw [hp] at h
      cases h
      exact hlong
    · rw [hp] at h
      cases h
      exact hfine
    · rw [hp] at h
      cases h

theorem patchy_withoutCore : ∃ log diags,
    patchy.configure patchyPrograms "." patchy.addressOf? = .ok (log, diags) ∧
    patchy.tiles[1]? = some ⟨3, 1, none, some ⟨some "long.elf"⟩⟩ ∧
    (⟨3, 1, none, some ⟨some "long.elf"⟩⟩ : Tile).LoadFails patchyPrograms "." "./long.elf"
      (.outOfWindow 0x20000 0x40000 1) ∧
    ∃ t before after, patchy.locate 3 1 = .ok t ∧
      diags = before ++
        (Problem.programLoad "./long.elf" (.outOfWindow 0x20000 0x40000 1)).on t :: after ∧
      (patchy.withoutCore 1).configure patchyPrograms "." patchy.addressOf? =
        .ok (log, before ++ after) := by
  have hvalid : patchy.Valid := valid_of_issues (by decide +kernel)
  have hs : (patchy.script patchyPrograms "." patchy.addressOf?).Completes := by
    rw [script_eq, Script.completes_append, Script.completes_append, ← streamSteps_eq]
    have htiles := completes_tileSteps_of_loads hvalid (by decide)
      fun x _ _ => patchy_loadable x
    refine ⟨⟨htiles, ?_⟩, ?_⟩
    · rw [Script.Completes]
      decide +kernel
    · rw [Script.Completes]
      decide +kernel
  have hconf := configure_eq_ok_iff.mpr ⟨hs, rfl, rfl⟩
  have hpath : programPath "." 3 1 (some "long.elf") = "./long.elf" := by decide
  have hread : patchyPrograms (programPath "." 3 1 (some "long.elf")) = .ok longProgramFile := by
    rw [hpath]
    rfl
  have hfit : ∀ r ∈ [(⟨0, true, [1, 2, 3, 4]⟩ : Segment)], r.verdict = .fits := by
    intro r hr
    rw [List.mem_singleton.mp hr]
    rfl
  have hfails : (⟨3, 1, none, some ⟨some "long.elf"⟩⟩ : Tile).LoadFails patchyPrograms "."
      "./long.elf" (.outOfWindow 0x20000 0x40000 1) := by
    rw [← hpath]
    exact .rejected (s := ⟨0x20000, true, [5]⟩) rfl hread rfl hfit rfl
  exact ⟨_, _, hconf, rfl, hfails, (configure_withoutCore hconf rfl rfl hfails).2⟩

end Device
end ArrayImage
