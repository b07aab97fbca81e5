import Mathlib.Data.List.TakeWhile
import ArrayImage.Proofs.Faults
import ArrayImage.Proofs.Lists
import ArrayImage.Proofs.Recovery
import ArrayImage.Proofs.Reports
import ArrayImage.Proofs.Stepwise

/-!
# ArrayImage.Proofs.Culprit

Which program ends a run, and what is known by then.

The tile phase goes through the declared tiles in order. `Device.SetsUp` says what some of them come
to: the phase faults, or it ends at the first tile whose file is no program for these machines, or it
gets through; up to there each program that is not loaded has one diagnostic. Single tiles are like
that (`setsUp_setupSteps`), and so is one list of tiles behind another (`SetsUp.append`). From this
the whole phase is told (`tileSteps_culprit`).
-/

namespace ArrayImage

/-! ## Runs up to their end -/

theorem Step.put_ne_abort {t : TileId} {o : Nat} {u : Update} {e : LoadFailure} :
    put t o u ≠ .abort e := by
  unfold put
  split <;> exact nofun

namespace Script

theorem stop?_append (s s' : Script) : stop? (s ++ s') = s.stop?.or s'.stop? := by
  rw [stop?, List.findSome?_append]
  rfl

/-- What comes behind the end of a run is not reported. -/
theorem diagnostics_append_eq (s s' : Script) : diagnostics (s ++ s') =
    match s.stop? with
    | some _ => s.diagnostics
    | none => s.diagnostics ++ s'.diagnostics := by
  induction s with
  | nil => rfl
  | cons x s ih =>
    cases hx : x.stop? with
    | some stop =>
      have hreached : ∀ r, reached (x :: r) = [] := fun r =>
        List.takeWhile_cons_of_neg (by rw [Step.continues, hx]; exact Bool.false_ne_true)
      have hstop : stop? (x :: s) = some stop := by rw [stop?, List.findSome?_cons, hx]
      rw [hstop, List.cons_append, diagnostics, diagnostics, hreached, hreached]
    | none =>
      rw [List.cons_append, diagnostics_cons hx, diagnostics_cons hx, stop?_cons hx, ih]
      cases stop? s with
      | some stop => rfl
      | none => exact (List.append_assoc _ _ _).symm

/-- Up to the step that ends it, a run goes through. -/
theorem perform_reached (s : Script) (p : Progress) :
    s.reached.perform p = .ok ⟨s.applyTo p.log, p.diagnostics ++ s.diagnostics⟩ := by
  have hs : s.reached.Completes := completes_iff.mpr fun x hx => by
    have hx := List.mem_takeWhile_imp hx
    rwa [Step.continues, Option.isNone_iff_eq_none] at hx
  rw [perform_eq_ok_iff]
  refine ⟨hs, ?_, ?_⟩
  · rw [applyTo, applyTo, writes, writes, hs.reached_eq]
  · rw [diagnostics, diagnostics, hs.reached_eq]

theorem diagnostics_eq_nil {s : Script} (h : s.reports = []) : s.diagnostics = [] := by
  have hnone := reports_eq_nil_iff.mp h
  rw [diagnostics, List.filterMap_eq_nil_iff]
  intro x hx
  have hx := hnone x ((List.takeWhile_sublist _).mem hx)
  cases x with
  | report t p => cases hx
  | _ => rfl

/-- No step ends the run at a program. -/
def NeverAborts (s : Script) : Prop :=
  ∀ e, .abort e ∉ s

theorem stop?_of_neverAborts {s : Script} (h : s.NeverAborts) :
    s.stop? = none ∨ ∃ f, s.stop? = some (.fault f) := by
  cases hs : s.stop? with
  | none => exact .inl rfl
  | some stop =>
    obtain ⟨x, hx, hstop⟩ := List.exists_of_findSome?_eq_some hs
    cases x with
    | fault f => cases hstop; exact .inr ⟨f, rfl⟩
    | abort e => exact absurd hx (h e)
    | _ => cases hstop

end Script

/-! ## Programs -/

/-- A file with this error is no program for these machines. -/
def LoadError.IsUntrusted (e : LoadError) : Prop :=
  (∃ reason, e = .malformed reason) ∨ e = .wrongClass ∨ e = .wrongEndianness

theorem LoadError.isFatal_iff {e : LoadError} : e.isFatal = true ↔ e.IsUntrusted := by
  cases e <;> simp [isFatal, IsUntrusted]

/-- Why a program is not loaded: the file has none, or the window refuses one of its segments. -/
def ProgramSource.refusal? (source : ProgramSource) (path : String) : Option LoadError :=
  match source path with
  | .error cause => some cause
  | .ok image =>
    match image.verdict with
    | .rejected cause => some cause
    | .fits | .broken _ => none

namespace Tile

/-- Where the program of a tile is. Only compute tiles with a core have one, whatever row they are
declared in. -/
def program? (dir : String) (x : Tile) : Option String :=
  if x.kind = .compute then
    x.core.map fun core => programPath dir x.column x.row core.programFile
  else none

/-- The program of a tile is in a file that cannot be trusted. -/
structure IsCulprit (source : ProgramSource) (dir : String) (x : Tile) (path : String)
    (cause : LoadError) : Prop where
  program : x.program? dir = some path
  unread : source path = .error cause
  untrusted : cause.IsUntrusted

end Tile

namespace Device

/-- The diagnostic for the program of a tile, if it is not loaded. -/
def loadDiagnostic? (d : Device) (source : ProgramSource) (dir : String) (x : Tile) :
    Option Diagnostic :=
  match d.locate x.column x.row, x.program? dir with
  | .ok t, some path => (source.refusal? path).map fun cause =>
      ⟨.programLoad, t, s!"cannot load {Text.quoted path}: {cause.message}"⟩
  | _, _ => none

/-- The tiles are in the array, and none of them is a culprit. -/
structure Passes (d : Device) (source : ProgramSource) (dir : String) (xs : List Tile) : Prop where
  located : ∀ x ∈ xs, ∃ t, d.locate x.column x.row = .ok t
  trusted : ∀ x ∈ xs, ∀ path cause, ¬ x.IsCulprit source dir path cause

/-- What the steps of some tiles come to, one tile after the other. -/
inductive SetsUp (d : Device) (source : ProgramSource) (dir : String) :
    List Tile → Script → Prop where
  /-- A precondition does not hold. -/
  | faulted {xs : List Tile} {s : Script} {f : Fault} (stop : s.stop? = some (.fault f)) :
    SetsUp d source dir xs s
  /-- The first program that cannot be trusted ends the run. -/
  | aborted {xs before after : List Tile} {x : Tile} {t : TileId} {path : String}
    {cause : LoadError} {s : Script} (tiles : xs = before ++ x :: after)
    (passes : d.Passes source dir before) (culprit : x.IsCulprit source dir path cause)
    (place : d.locate x.column x.row = .ok t)
    (stop : s.stop? = some (.abort ⟨t, path, cause⟩))
    (diagnostics : s.diagnostics = before.filterMap (d.loadDiagnostic? source dir)) :
    SetsUp d source dir xs s
  /-- All tiles are set up. -/
  | done {xs : List Tile} {s : Script} (passes : d.Passes source dir xs) (stop : s.stop? = none)
    (diagnostics : s.diagnostics = xs.filterMap (d.loadDiagnostic? source dir)) :
    SetsUp d source dir xs s

section

variable {d : Device} {source : ProgramSource} {dir : String}

theorem Passes.nil : d.Passes source dir [] where
  located := List.forall_mem_nil _
  trusted := List.forall_mem_nil _

theorem Passes.append {xs ys : List Tile} (h : d.Passes source dir xs)
    (h' : d.Passes source dir ys) : d.Passes source dir (xs ++ ys) where
  located := List.forall_mem_append.mpr ⟨h.located, h'.located⟩
  trusted := List.forall_mem_append.mpr ⟨h.trusted, h'.trusted⟩

theorem Passes.singleton {x : Tile} {t : TileId} (ht : d.locate x.column x.row = .ok t)
    (h : ∀ path cause, ¬ x.IsCulprit source dir path cause) : d.Passes source dir [x] where
  located := List.forall_mem_singleton.mpr ⟨t, ht⟩
  trusted := List.forall_mem_singleton.mpr h

theorem SetsUp.append {xs ys : List Tile} {s s' : Script} (h : d.SetsUp source dir xs s)
    (h' : d.SetsUp source dir ys s') : d.SetsUp source dir (xs ++ ys) (s ++ s') := by
  cases h with
  | faulted stop => exact .faulted (by rw [Script.stop?_append, stop]; rfl)
  | aborted tiles passes culprit place stop diagnostics =>
    refine .aborted (by rw [tiles, List.append_assoc, List.cons_append]) passes culprit place
      (by rw [Script.stop?_append, stop]; rfl) ?_
    rw [Script.diagnostics_append_eq, stop, diagnostics]
  | done passes stop diagnostics =>
    have hstop : Script.stop? (s ++ s') = s'.stop? := by rw [Script.stop?_append, stop]; rfl
    have hdiag : Script.diagnostics (s ++ s') = s.diagnostics ++ s'.diagnostics := by
      rw [Script.diagnostics_append_eq, stop]
    cases h' with
    | faulted stop' => exact .faulted (hstop.trans stop')
    | aborted tiles' passes' culprit' place' stop' diagnostics' =>
      refine .aborted (by rw [tiles', List.append_assoc]) (passes.append passes') culprit' place'
        (hstop.trans stop') ?_
      rw [hdiag, diagnostics, diagnostics', List.filterMap_append]
    | done passes' stop' diagnostics' =>
      refine .done (passes.append passes') (hstop.trans stop') ?_
      rw [hdiag, diagnostics, diagnostics', List.filterMap_append]

/-- Steps that neither end the run nor report anything come from no tile. -/
theorem SetsUp.quiet {s : Script} (hstop : s.stop? = none) (hdiag : s.diagnostics = []) :
    d.SetsUp source dir [] s :=
  .done .nil hstop hdiag

/-- Steps without a report, for a tile whose program is not in the way. -/
theorem SetsUp.of_neverAborts {x : Tile} {t : TileId} {s : Script} (hs : s.NeverAborts)
    (hreports : s.reports = []) (ht : d.locate x.column x.row = .ok t)
    (h : ∀ path, x.program? dir = some path → source.refusal? path = none) :
    d.SetsUp source dir [x] s := by
  rcases Script.stop?_of_neverAborts hs with hstop | ⟨f, hstop⟩
  · refine .done (.singleton ht ?_) hstop ?_
    · rintro path cause ⟨hpath, hunread, -⟩
      have := h path hpath
      rw [ProgramSource.refusal?, hunread] at this
      cases this
    · have hnone : d.loadDiagnostic? source dir x = none := by
        rw [loadDiagnostic?, ht]
        cases hpath : x.program? dir with
        | none => rfl
        | some path => simp [h path hpath]
      rw [Script.diagnostics_eq_nil hreports]
      simp [hnone]
  · exact .faulted hstop

theorem setsUp_failed {x : Tile} {t : TileId} {path : String} {cause : LoadError}
    (ht : d.locate x.column x.row = .ok t) (hpath : x.program? dir = some path)
    (h : source.refusal? path = some cause)
    (hread : cause.isFatal = true → source path = .error cause) :
    d.SetsUp source dir [x] (loadSteps.failed t path cause) := by
  unfold loadSteps.failed
  by_cases hfatal : cause.isFatal = true
  · rw [if_pos hfatal]
    exact .aborted (List.nil_append [x]).symm .nil
      ⟨hpath, hread hfatal, LoadError.isFatal_iff.mp hfatal⟩ ht rfl rfl
  · rw [if_neg hfatal]
    refine .done (.singleton ht ?_) rfl ?_
    · rintro path' cause' ⟨hpath', hread', huntrusted⟩
      cases hpath.symm.trans hpath'
      rw [ProgramSource.refusal?, hread'] at h
      cases h
      exact hfatal (LoadError.isFatal_iff.mpr huntrusted)
    · simp only [loadDiagnostic?, List.filterMap_cons, ht, hpath, h]
      rfl

theorem neverAborts_clearSteps (t : TileId) (regions : List Region) :
    (clearSteps t regions).NeverAborts := by
  intro e he
  obtain ⟨r, -, hr⟩ := List.mem_flatMap.mp he
  unfold Script.clear at hr
  split at hr
  · simp at hr
  · split at hr
    · simp at hr
    · split at hr
      · simp at hr
      · obtain ⟨i, -, hi⟩ := List.mem_map.mp hr
        exact Step.put_ne_abort hi

theorem neverAborts_placeSteps (t : TileId) (image : ProgramImage) :
    Script.NeverAborts (image.segments.flatMap (Segment.placeSteps t)) := by
  intro e he
  obtain ⟨s, -, hs⟩ := List.mem_flatMap.mp he
  unfold Segment.placeSteps at hs
  split at hs
  · simp at hs
  · obtain ⟨i, _, hi⟩ := List.mem_mapIdx.mp hs
    exact Step.put_ne_abort hi

/-- The program of a tile is loaded, or it is not and costs a diagnostic, or it is the culprit. -/
theorem setsUp_loadSteps {x : Tile} {t : TileId} (ht : d.locate x.column x.row = .ok t)
    (hk : x.kind = .compute) : d.SetsUp source dir [x] (loadSteps source dir t x) := by
  have hprogram : ∀ core, x.core = some core →
      x.program? dir = some (programPath dir x.column x.row core.programFile) := by
    intro core hcore
    rw [Tile.program?, if_pos hk, hcore]
    rfl
  have hremarks : ∀ image : ProgramImage, d.SetsUp source dir [] (image.remarks t) := by
    intro image
    unfold ProgramImage.remarks
    split <;> exact .quiet rfl rfl
  have h := x.loads_loadSteps source dir t
  generalize loadSteps source dir t x = steps at h ⊢
  cases h with
  | absent core_eq =>
    refine .of_neverAborts (by simp [Script.NeverAborts]) rfl ht fun path hpath => ?_
    rw [Tile.program?, if_pos hk, core_eq] at hpath
    cases hpath
  | unread core_eq unread =>
    refine setsUp_failed ht (hprogram _ core_eq) ?_ fun _ => unread
    rw [ProgramSource.refusal?, unread]
  | @placed core image core_eq read fits =>
    have hplaced : Script.reports (image.segments.flatMap (Segment.placeSteps t)) = [] := by
      simp [Segment.reports_placeSteps]
    refine (hremarks image).append
      (.of_neverAborts (neverAborts_placeSteps t image) hplaced ht fun path hpath => ?_)
    cases (hprogram core core_eq).symm.trans hpath
    simp only [ProgramSource.refusal?, read, fits]
  | @rejected core image cause core_eq read rejected =>
    refine (hremarks image).append (setsUp_failed ht (hprogram core core_eq) ?_ fun hfatal => ?_)
    · simp only [ProgramSource.refusal?, read, rejected]
    · rw [ProgramImage.isFatal_of_rejected rejected] at hfatal
      cases hfatal
  | @broken core image fault => exact (hremarks image).append (.faulted rfl)

/-- One tile: it is cleared, and a compute tile gets its program. -/
theorem setsUp_setupSteps (x : Tile) :
    d.SetsUp source dir [x] (x.setupSteps source dir d.arrayOffset.toNat) := by
  rw [Tile.setupSteps_eq]
  cases ht : d.locate x.column x.row with
  | error f =>
    unfold Script.onTile
    rw [← locate, ht]
    exact .faulted rfl
  | ok t =>
    rw [Script.onTile_eq ht]
    have hclear := neverAborts_clearSteps t x.kind.resetRegions
    by_cases hk : x.kind = .compute
    · rw [Tile.stepsOn_compute hk]
      rcases Script.stop?_of_neverAborts hclear with hstop | ⟨f, hstop⟩
      · have hdiag := Script.diagnostics_eq_nil (reports_clearSteps t x.kind.resetRegions)
        exact (SetsUp.quiet hstop hdiag).append (setsUp_loadSteps ht hk)
      · exact .faulted (by rw [Script.stop?_append, hstop]; rfl)
    · rw [Tile.stepsOn_shim hk]
      refine .of_neverAborts hclear (reports_clearSteps t _) ht fun path hpath => ?_
      rw [Tile.program?, if_neg hk] at hpath
      cases hpath

/-- Many tiles, one after the other. -/
theorem setsUp_flatMap (xs : List Tile) : d.SetsUp source dir xs
    (xs.flatMap (Tile.setupSteps source dir d.arrayOffset.toNat)) := by
  induction xs with
  | nil => exact .quiet rfl rfl
  | cons x xs ih => exact (setsUp_setupSteps x).append ih

end

def withoutShimCores (d : Device) : Device :=
  { d with tiles := d.tiles.map fun x => if x.kind = .compute then x else x.dropCore }

theorem tileSteps_withoutShimCores (d : Device) (source : ProgramSource) (dir : String) :
    d.withoutShimCores.tileSteps source dir = d.tileSteps source dir := by
  have hshim : ∀ x : Tile, x.kind ≠ .compute → ∀ a,
      x.dropCore.setupSteps source dir a = x.setupSteps source dir a := by
    intro x hk a
    rw [Tile.setupSteps_eq, Tile.setupSteps_eq]
    refine congrArg (Script.onTile a _ _) (funext fun t => ?_)
    rw [Tile.stepsOn_shim hk, Tile.stepsOn_shim (x := x.dropCore) hk]
    rfl
  rw [tileSteps, tileSteps, withoutShimCores, List.flatMap_map]
  refine List.flatMap_congr fun x _ => ?_
  by_cases hk : x.kind = .compute
  · rw [if_pos hk]
  · rw [if_neg hk, hshim x hk]

/-- No other file than those of the compute tiles with a core is looked at. -/
theorem tileSteps_congr {d : Device} {source source' : ProgramSource} {dir : String}
    (h : ∀ x ∈ d.tiles, ∀ path, x.program? dir = some path → source' path = source path) :
    d.tileSteps source' dir = d.tileSteps source dir := by
  rw [tileSteps, tileSteps]
  refine List.flatMap_congr fun x hx => ?_
  rw [Tile.setupSteps_eq, Tile.setupSteps_eq]
  refine congrArg (Script.onTile _ _ _) (funext fun t => ?_)
  by_cases hk : x.kind = .compute
  · rw [Tile.stepsOn_compute hk, Tile.stepsOn_compute hk, loadSteps, loadSteps]
    cases hcore : x.core with
    | none => rfl
    | some core =>
      have hread := h x hx (programPath dir x.column x.row core.programFile) (by
        rw [Tile.program?, if_pos hk, hcore]
        rfl)
      simp only [hread]
  · rw [Tile.stepsOn_shim hk, Tile.stepsOn_shim hk]

/-- Which program ends the tile phase. The first compute tile with a core whose file is malformed or
for other machines ends it, with its place, its path and the cause, and by then the diagnostics are
those of the programs before it that are not loaded. Without such a tile the phase gets through, with
one diagnostic for each program that is not loaded. A core of a shim tile is never looked at. -/
theorem tileSteps_culprit {d : Device} {source : ProgramSource} {dir : String} {log : WriteLog}
    (h : ∀ f, (d.tileSteps source dir).perform (.start log) ≠ .error (.fault f)) :
    ((∃ e, (d.tileSteps source dir).perform (.start log) = .error (.abort e)) ↔
      ∃ x ∈ d.tiles, ∃ path cause, x.IsCulprit source dir path cause) ∧
    (∀ before x after path cause, d.tiles = before ++ x :: after →
      (∀ y ∈ before, ∀ path cause, ¬ y.IsCulprit source dir path cause) →
      x.IsCulprit source dir path cause →
      ∃ t, d.locate x.column x.row = .ok t ∧
        (d.tileSteps source dir).perform (.start log) = .error (.abort ⟨t, path, cause⟩) ∧
        (∀ y ∈ before, ∃ u, d.locate y.column y.row = .ok u) ∧
        ∃ log', (d.tileSteps source dir).reached.perform (.start log) =
          .ok ⟨log', before.filterMap (d.loadDiagnostic? source dir)⟩) ∧
    ((∀ x ∈ d.tiles, ∀ path cause, ¬ x.IsCulprit source dir path cause) →
      (∀ x ∈ d.tiles, ∃ t, d.locate x.column x.row = .ok t) ∧
      ∃ log', (d.tileSteps source dir).perform (.start log) =
        .ok ⟨log', d.tiles.filterMap (d.loadDiagnostic? source dir)⟩) ∧
    d.withoutShimCores.tileSteps source dir = d.tileSteps source dir ∧
    ∀ source' : ProgramSource,
      (∀ x ∈ d.tiles, ∀ path, x.program? dir = some path → source' path = source path) →
      d.tileSteps source' dir = d.tileSteps source dir := by
  have hsetsUp : d.SetsUp source dir d.tiles (d.tileSteps source dir) := setsUp_flatMap d.tiles
  have hrun := Script.perform_eq (d.tileSteps source dir) (.start log)
  have hreached := Script.perform_reached (d.tileSteps source dir) (.start log)
  rw [← and_assoc, ← and_assoc]
  refine ⟨?_, d.tileSteps_withoutShimCores source dir, fun source' => tileSteps_congr⟩
  cases hsetsUp with
  | faulted stop =>
    rw [stop] at hrun
    exact absurd hrun (h _)
  | @aborted before after x t path cause _ tiles passes culprit place stop diagnostics =>
    rw [stop] at hrun
    rw [diagnostics] at hreached
    have hx : x ∈ d.tiles := tiles ▸ List.mem_append_right _ List.mem_cons_self
    refine ⟨⟨iff_of_true ⟨_, hrun⟩ ⟨x, hx, path, cause, culprit⟩, ?_⟩, fun hno => ?_⟩
    · intro before' x' after' path' cause' tiles' trusted' culprit'
      obtain ⟨rfl, rfl⟩ := first_unique (P := fun x : Tile => ∃ path cause,
          x.IsCulprit source dir path cause) (tiles.symm.trans tiles')
        (fun y hy ⟨p, c, hc⟩ => passes.trusted y hy p c hc) ⟨path, cause, culprit⟩
        (fun y hy ⟨p, c, hc⟩ => trusted' y hy p c hc) ⟨path', cause', culprit'⟩
      cases culprit.program.symm.trans culprit'.program
      cases culprit.unread.symm.trans culprit'.unread
      exact ⟨t, place, hrun, passes.located, _, hreached⟩
    · exact absurd culprit (hno x hx path cause)
  | done passes stop diagnostics =>
    rw [stop, diagnostics] at hrun
    refine ⟨⟨iff_of_false ?_ ?_, ?_⟩, fun _ => ⟨passes.located, _, hrun⟩⟩
    · rintro ⟨e, he⟩
      rw [hrun] at he
      cases he
    · rintro ⟨x, hx, path, cause, culprit⟩
      exact passes.trusted x hx path cause culprit
    · intro before x after path cause tiles _ culprit
      exact absurd culprit (passes.trusted x
        (tiles ▸ List.mem_append_right _ List.mem_cons_self) path cause)

/-- The phase does not fault when the tiles have registers and no place of a program overflows. -/
theorem tileSteps_ne_fault {d : Device} {source : ProgramSource} {dir : String}
    (hplace : ∀ x ∈ d.tiles, ∃ t, d.locate x.column x.row = .ok t ∧ 0 < t.column)
    (hfit : ∀ path image, source path = .ok image →
      ∀ s ∈ image.segments, ∀ f, s.verdict ≠ .broken f) (log : WriteLog) (f : Fault) :
    (d.tileSteps source dir).perform (.start log) ≠ .error (.fault f) := by
  have hall : Script.AllFaults (fun _ => False) (d.tileSteps source dir) := by
    rw [tileSteps, Script.allFaults_flatMap]
    intro x hx
    obtain ⟨t, ht, hc⟩ := hplace x hx
    rw [Tile.setupSteps_eq, Script.onTile_eq ht]
    have hclear := (completes_clearSteps hc x.kind).allFaults (P := fun _ => False)
    by_cases hk : x.kind = .compute
    · rw [Tile.stepsOn_compute hk, Script.allFaults_append]
      exact ⟨hclear, allFaults_loadSteps hc fun _ _ image himage s hs f => hfit _ image himage s hs f⟩
    · rw [Tile.stepsOn_shim hk]
      exact hclear
  intro hrun
  rw [Script.perform_eq] at hrun
  cases hstop : (d.tileSteps source dir).stop? with
  | none =>
    rw [hstop] at hrun
    cases hrun
  | some stop =>
    rw [hstop] at hrun
    cases hrun
    exact hall f (Script.mem_of_stop? hstop)

/-- A shim with a core, a program that is not there, one that is too long, one for other machines
and one that is malformed. -/
def suspects : Device where
  schemaVersion := "1.0"
  name := "suspects"
  arrayOffset := 1
  tiles := [⟨3, 5, some .shimPl, some ⟨some "bad.elf"⟩⟩, ⟨3, 1, none, some ⟨some "gone.elf"⟩⟩,
    ⟨3, 2, none, some ⟨some "long.elf"⟩⟩, ⟨3, 3, none, some ⟨none⟩⟩,
    ⟨3, 4, none, some ⟨some "bad.elf"⟩⟩]
  buffers := []
  locks := []
  memories := []
  switchboxes := []
  shimMuxes := []

def suspectPrograms : ProgramSource := fun path =>
  if path = "./long.elf" then .ok longProgramFile
  else if path = "./core_3_3.elf" then .error .wrongClass
  else if path = "./bad.elf" then .error (.malformed "no table")
  else .error (.unreadable path)

theorem suspects_culprit : ∃ t gone long,
    suspects.locate 3 3 = .ok t ∧ suspects.locate 3 1 = .ok gone ∧ suspects.locate 3 2 = .ok long ∧
    (∀ f, (suspects.tileSteps suspectPrograms ".").perform (.start .empty) ≠ .error (.fault f)) ∧
    (suspects.tileSteps suspectPrograms ".").perform (.start .empty) =
      .error (.abort ⟨t, "./core_3_3.elf", .wrongClass⟩) ∧
    ∃ log, (suspects.tileSteps suspectPrograms ".").reached.perform (.start .empty) =
      .ok ⟨log, [⟨.programLoad, gone,
          "cannot load \"./gone.elf\": Failed to read program \"./gone.elf\""⟩,
        ⟨.programLoad, long, "cannot load \"./long.elf\": Segment at 0x20000 (1 bytes) " ++
          "does not fit the tile window at 0x40000"⟩]⟩ := by
  have hplace : ∀ x ∈ suspects.tiles, ∃ t, suspects.locate x.column x.row = .ok t ∧ 0 < t.column := by
    intro x hx
    simp only [suspects, List.mem_cons, List.not_mem_nil, or_false] at hx
    rcases hx with rfl | rfl | rfl | rfl | rfl <;> exact ⟨_, rfl, by decide⟩
  have hfit : ∀ path image, suspectPrograms path = .ok image →
      ∀ s ∈ image.segments, ∀ f, s.verdict ≠ .broken f := by
    intro path image himage s hs f hf
    unfold suspectPrograms at himage
    split at himage
    · cases himage
      rcases List.mem_cons.mp hs with rfl | hs
      · cases hf
      · rw [List.mem_singleton.mp hs] at hf
        cases hf
    · repeat' split at himage
      all_goals cases himage
  have htrusted : ∀ x ∈ suspects.tiles.take 3, ∀ path cause,
      ¬ x.IsCulprit suspectPrograms "." path cause := by
    rintro x hx path cause ⟨hpath, hread, huntrusted⟩
    simp only [suspects, List.take_succ_cons, List.take_zero, List.mem_cons, List.not_mem_nil,
      or_false] at hx
    rcases hx with rfl | rfl | rfl
    · cases (show none = some path from hpath)
    · cases (show some "./gone.elf" = some path from hpath)
      cases (show Except.error (.unreadable "./gone.elf") = Except.error cause from hread)
      simp [LoadError.IsUntrusted] at huntrusted
    · cases (show some "./long.elf" = some path from hpath)
      cases (show Except.ok longProgramFile = Except.error cause from hread)
  have hno : ∀ f, (suspects.tileSteps suspectPrograms ".").perform (.start .empty) ≠
      .error (.fault f) := tileSteps_ne_fault hplace hfit .empty
  obtain ⟨-, hfirst, -⟩ := tileSteps_culprit hno
  obtain ⟨t, ht, hrun, -, log, hreached⟩ := hfirst (suspects.tiles.take 3) ⟨3, 3, none, some ⟨none⟩⟩
    (suspects.tiles.drop 4) "./core_3_3.elf" .wrongClass rfl htrusted
    ⟨by decide, rfl, .inr (.inl rfl)⟩
  refine ⟨t, _, _, ht, rfl, rfl, hno, hrun, log, ?_⟩
  rw [hreached]
  rfl

end Device
end ArrayImage
