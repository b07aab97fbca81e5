import ArrayImage.Proofs.Coalescing
import ArrayImage.Proofs.Placement
import ArrayImage.Proofs.Validity

/-!
# ArrayImage.Proofs.Reset

Which addresses the tile phase writes: the words of the regions that are cleared for each declared
tile, and the words of the programs that are accepted (`touches_tileSteps`).
-/

namespace ArrayImage

/-! ## Sums -/

theorem checkedAdd_eq_ok {bits a b n : Nat} (h : checkedAdd bits a b = .ok n) :
    n = a + b ∧ a + b < 1 <<< bits := by
  unfold checkedAdd at h
  split at h
  · cases h
    exact ⟨rfl, ‹_›⟩
  · cases h

theorem checkedAdd_eq_error {bits a b : Nat} {f : Fault} (h : checkedAdd bits a b = .error f) :
    f = .addOverflow ∧ 1 <<< bits ≤ a + b := by
  unfold checkedAdd at h
  split at h
  · cases h
  · cases h
    exact ⟨rfl, Nat.le_of_not_lt ‹_›⟩

/-! ## Clearing -/

theorem Script.touches_clear {t : TileId} {r : Region} (hs : Completes (clear t r.base r.size))
    (hlen : r.size ≤ windowSize) {a : Nat} :
    (clear t r.base r.size).Touches a ↔ ∃ o ∈ r.words, a = t.address o := by
  have hmin : min (r.size / 4) (windowSize / 4 + 1) = r.size / 4 :=
    Nat.min_eq_left (Nat.le_succ_of_le (Nat.div_le_div_right hlen))
  simp only [clear] at hs ⊢
  split at hs
  · exact absurd hs (not_completes_fault _)
  · split at hs
    · exact absurd hs (not_completes_fault _)
    · rename_i hstart hlength
      rw [if_neg hstart, if_neg hlength]
      cases hadd : checkedAdd 32 r.base r.size with
      | error f =>
        simp only [hadd] at hs
        exact absurd hs (not_completes_fault f)
      | ok last =>
        simp only [hadd] at hs
        rw [hmin] at hs ⊢
        rw [touches_map_put hs]
        constructor
        · rintro ⟨i, hi, rfl⟩
          exact ⟨_, Region.mem_words.mpr ⟨i, List.mem_range.mp hi, rfl⟩, rfl⟩
        · rintro ⟨o, ho, rfl⟩
          obtain ⟨i, hi, rfl⟩ := Region.mem_words.mp ho
          exact ⟨i, List.mem_range.mpr hi, rfl⟩

theorem Script.completes_clear {t : TileId} {r : Region} (hc : 0 < t.column)
    (hb : r.base % 4 = 0) (hs : r.size % 4 = 0) (hlen : r.base + r.size ≤ windowSize) :
    Completes (clear t r.base r.size) := by
  have hadd : checkedAdd 32 r.base r.size = .ok (r.base + r.size) :=
    if_pos (Nat.lt_of_le_of_lt hlen (by decide))
  simp only [clear]
  rw [if_neg (by omega), if_neg (by omega), hadd, completes_iff]
  intro x hx
  obtain ⟨i, hi, rfl⟩ := List.mem_map.mp hx
  have hi := Nat.lt_of_lt_of_le (List.mem_range.mp hi) (Nat.min_le_left _ _)
  exact Step.stop?_put_eq_none_iff.mpr ⟨hc, by omega⟩

theorem TileKind.resetRegions_bounds (k : TileKind) : ∀ r ∈ k.resetRegions,
    r.base % 4 = 0 ∧ r.size % 4 = 0 ∧ r.base + r.size ≤ windowSize := by
  rw [windowSize_eq]
  cases k <;> decide

theorem completes_clearSteps {t : TileId} (hc : 0 < t.column) (k : TileKind) :
    (clearSteps t k.resetRegions).Completes := by
  rw [clearSteps, Script.completes_flatMap]
  intro r hr
  obtain ⟨hb, hs, hlen⟩ := k.resetRegions_bounds r hr
  exact Script.completes_clear hc hb hs hlen

theorem TileKind.size_le_windowSize (k : TileKind) : ∀ r ∈ k.resetRegions, r.size ≤ windowSize := by
  intro r hr
  obtain ⟨-, -, hle⟩ := k.resetRegions_bounds r hr
  exact Nat.le_trans (Nat.le_add_left _ _) hle

theorem touches_clearSteps {t : TileId} {regions : List Region}
    (hs : (clearSteps t regions).Completes) (hlen : ∀ r ∈ regions, r.size ≤ windowSize) {a : Nat} :
    (clearSteps t regions).Touches a ↔ ∃ r ∈ regions, ∃ o ∈ r.words, a = t.address o := by
  rw [clearSteps, Script.touches_flatMap]
  have hc := Script.completes_flatMap.mp hs
  constructor
  · rintro ⟨r, hr, hw⟩
    exact ⟨r, hr, (Script.touches_clear (hc r hr) (hlen r hr)).mp hw⟩
  · rintro ⟨r, hr, hw⟩
    exact ⟨r, hr, (Script.touches_clear (hc r hr) (hlen r hr)).mpr hw⟩

/-! ## Programs -/

theorem length_wordsOfBytes (data : List UInt8) :
    (wordsOfBytes data).length = (data.length + 3) / 4 := by
  fun_induction wordsOfBytes data with
  | case1 b0 b1 b2 b3 rest ih =>
    simp only [List.length_cons, ih]
    omega
  | case2 | case3 | case4 | case5 => simp

/-- The places of the words of a segment, which start at its destination. -/
def Segment.Places (s : Segment) (o : Nat) : Prop :=
  ∃ dest, s.destination = .ok dest ∧ ∃ i < s.wordCount, o = dest + 4 * i

theorem Segment.touches_placeSteps {t : TileId} {s : Segment} (hs : (s.placeSteps t).Completes)
    {a : Nat} : (s.placeSteps t).Touches a ↔ ∃ o, s.Places o ∧ a = t.address o := by
  unfold placeSteps at hs ⊢
  simp only [Places]
  cases hd : s.destination with
  | error f =>
    simp only [hd] at hs
    exact absurd hs (Script.not_completes_fault f)
  | ok dest =>
    simp only [hd] at hs ⊢
    have hzip : (wordsOfBytes s.data).mapIdx (fun i word => Step.put t (dest + 4 * i) (.put word)) =
        (wordsOfBytes s.data).zipIdx.map fun x => Step.put t (dest + 4 * x.2) (.put x.1) :=
      List.mapIdx_eq_zipIdx_map
    rw [hzip] at hs ⊢
    rw [Script.touches_map_put hs]
    constructor
    · rintro ⟨x, hx, rfl⟩
      have hi := List.snd_lt_of_mem_zipIdx hx
      rw [length_wordsOfBytes] at hi
      exact ⟨_, ⟨dest, rfl, x.2, hi, rfl⟩, rfl⟩
    · rintro ⟨_, ⟨_, hdest, i, hi, rfl⟩, rfl⟩
      cases hdest
      rw [wordCount, ← length_wordsOfBytes] at hi
      exact ⟨((wordsOfBytes s.data)[i], i), List.mem_zipIdx_iff_getElem?.mpr
        (List.getElem?_eq_getElem hi), rfl⟩

/-! ## Programs that fit -/

namespace Segment

theorem verdict_eq_fits {s : Segment} (h : s.verdict = .fits) :
    ∃ dest, s.destination = .ok dest ∧ dest + 4 * s.wordCount ≤ windowSize := by
  unfold verdict at h
  cases hd : s.destination with
  | error f =>
    simp only [hd] at h
    cases h
  | ok dest =>
    simp only [hd] at h
    cases hlast : checkedAdd 64 dest (4 * s.wordCount) with
    | error f =>
      simp only [hlast] at h
      cases h
    | ok last =>
      simp only [hlast] at h
      split at h
      · obtain ⟨rfl, -⟩ := checkedAdd_eq_ok hlast
        exact ⟨dest, rfl, ‹_›⟩
      · cases h

/-- Only an executable segment can have a place outside the address space. The others would have to
be as long as half of it. -/
theorem verdict_eq_broken {s : Segment} {f : Fault} (hlen : s.data.length < 0x8000000000000000)
    (h : s.verdict = .broken f) :
    f = .addOverflow ∧ s.executable = true ∧
      0x10000000000000000 ≤ s.address.toNat + 0x20000 + 4 * s.wordCount := by
  unfold verdict at h
  cases hd : s.destination with
  | error g =>
    simp only [hd] at h
    cases h
    unfold destination at hd
    split at hd
    · obtain ⟨rfl, hle⟩ := checkedAdd_eq_error hd
      simp only [RegisterMap.programMemory] at hle
      exact ⟨rfl, ‹_›, by omega⟩
    · cases hd
  | ok dest =>
    simp only [hd] at h
    cases hlast : checkedAdd 64 dest (4 * s.wordCount) with
    | error g =>
      simp only [hlast] at h
      cases h
      obtain ⟨rfl, hle⟩ := checkedAdd_eq_error hlast
      unfold destination at hd
      split at hd
      · obtain ⟨rfl, -⟩ := checkedAdd_eq_ok hd
        simp only [RegisterMap.programMemory] at hle
        exact ⟨rfl, ‹_›, by omega⟩
      · cases hd
        simp only [RegisterMap.dataMemory, wordCount] at hle
        omega
    | ok last =>
      simp only [hlast] at h
      split at h <;> cases h

/-- What a window rejects is too long for it, which costs the program and nothing else. -/
theorem verdict_eq_rejected {s : Segment} {e : LoadError} (h : s.verdict = .rejected e) :
    ∃ dest, s.destination = .ok dest ∧ windowSize < dest + 4 * s.wordCount ∧
      e = .outOfWindow s.address.toNat dest s.data.length := by
  unfold verdict at h
  cases hd : s.destination with
  | error f =>
    simp only [hd] at h
    cases h
  | ok dest =>
    simp only [hd] at h
    cases hlast : checkedAdd 64 dest (4 * s.wordCount) with
    | error f =>
      simp only [hlast] at h
      cases h
    | ok last =>
      simp only [hlast] at h
      obtain ⟨rfl, -⟩ := checkedAdd_eq_ok hlast
      split at h
      · cases h
      · cases h
        exact ⟨dest, rfl, Nat.lt_of_not_le ‹_›, rfl⟩

theorem completes_placeSteps {t : TileId} (hc : 0 < t.column) {s : Segment}
    (h : s.verdict = .fits) : (s.placeSteps t).Completes := by
  obtain ⟨dest, hd, hle⟩ := verdict_eq_fits h
  unfold placeSteps
  simp only [hd]
  rw [Script.completes_iff]
  intro x hx
  obtain ⟨i, hi, rfl⟩ := List.mem_mapIdx.mp hx
  rw [length_wordsOfBytes, ← wordCount] at hi
  exact Step.stop?_put_eq_none_iff.mpr ⟨hc, by omega⟩

/-- The words of a segment that fits are inside the window. -/
theorem Places.bound {s : Segment} {o : Nat} (h : s.Places o) (hv : s.verdict = .fits) :
    o + 4 ≤ windowSize := by
  obtain ⟨dest, hd, i, hi, rfl⟩ := h
  obtain ⟨dest', hd', hle⟩ := verdict_eq_fits hv
  rw [hd'] at hd
  cases hd
  omega

end Segment

namespace ProgramImage

theorem verdict_eq_fits {p : ProgramImage} (h : p.verdict = .fits) :
    ∀ s ∈ p.segments, s.verdict = .fits := by
  obtain ⟨segments⟩ := p
  rw [verdict] at h
  induction segments with
  | nil => simp
  | cons s rest ih =>
    rw [verdict.go] at h
    cases hs : s.verdict with
    | fits =>
      simp only [hs] at h
      exact List.forall_mem_cons.mpr ⟨hs, ih h⟩
    | rejected e =>
      simp only [hs] at h
      cases h
    | broken f =>
      simp only [hs] at h
      cases h

theorem verdict_eq_broken {p : ProgramImage} {f : Fault} (h : p.verdict = .broken f) :
    ∃ s ∈ p.segments, s.verdict = .broken f := by
  obtain ⟨segments⟩ := p
  rw [verdict] at h
  induction segments with
  | nil => cases h
  | cons s rest ih =>
    rw [verdict.go] at h
    cases hs : s.verdict with
    | fits =>
      simp only [hs] at h
      obtain ⟨r, hr, hrf⟩ := ih h
      exact ⟨r, List.mem_cons_of_mem _ hr, hrf⟩
    | rejected e =>
      simp only [hs] at h
      cases h
    | broken g =>
      simp only [hs] at h
      cases h
      exact ⟨s, List.mem_cons_self, hs⟩

/-- The segment that a program is rejected for is the first one that does not fit. -/
theorem verdict_eq_rejected {p : ProgramImage} {e : LoadError} (h : p.verdict = .rejected e) :
    ∃ before s after, p.segments = before ++ s :: after ∧ (∀ r ∈ before, r.verdict = .fits) ∧
      s.verdict = .rejected e := by
  obtain ⟨segments⟩ := p
  rw [verdict] at h
  induction segments with
  | nil => cases h
  | cons s rest ih =>
    rw [verdict.go] at h
    cases hs : s.verdict with
    | fits =>
      simp only [hs] at h
      obtain ⟨before, r, after, rfl, hbefore, hr⟩ := ih h
      exact ⟨s :: before, r, after, rfl, List.forall_mem_cons.mpr ⟨hs, hbefore⟩, hr⟩
    | rejected e' =>
      simp only [hs] at h
      cases h
      exact ⟨[], s, rest, rfl, by simp, hs⟩
    | broken f =>
      simp only [hs] at h
      cases h

theorem isFatal_of_rejected {p : ProgramImage} {e : LoadError} (h : p.verdict = .rejected e) :
    e.isFatal = false := by
  obtain ⟨-, s, -, -, -, hs⟩ := verdict_eq_rejected h
  obtain ⟨dest, -, -, rfl⟩ := Segment.verdict_eq_rejected hs
  rfl

end ProgramImage

/-! ## Programs of tiles -/

/-- The places of the words of the program of a tile, when it has one that is accepted. -/
def Tile.ProgramPlaces (source : ProgramSource) (dir : String) (x : Tile) (o : Nat) : Prop :=
  ∃ core, x.core = some core ∧ ∃ image,
    source (programPath dir x.column x.row core.programFile) = .ok image ∧
    image.verdict = .fits ∧ ∃ s ∈ image.segments, s.Places o

theorem loadSteps.not_touches_failed (t : TileId) (path : String) (cause : LoadError) (a : Nat) :
    ¬ (failed t path cause).Touches a := by
  unfold failed
  split <;> simp [Script.Touches]

theorem ProgramImage.touches_placeSteps {p : ProgramImage} {t : TileId} {a : Nat}
    (hs : Script.Completes (p.segments.flatMap (Segment.placeSteps t))) :
    Script.Touches (p.segments.flatMap (Segment.placeSteps t)) a ↔
      ∃ s ∈ p.segments, ∃ o, s.Places o ∧ a = t.address o := by
  have hc := Script.completes_flatMap.mp hs
  rw [Script.touches_flatMap]
  constructor
  · rintro ⟨s, hm, hw⟩
    exact ⟨s, hm, (Segment.touches_placeSteps (hc s hm)).mp hw⟩
  · rintro ⟨s, hm, hw⟩
    exact ⟨s, hm, (Segment.touches_placeSteps (hc s hm)).mpr hw⟩

theorem touches_loadSteps {source : ProgramSource} {dir : String} {t : TileId} {x : Tile}
    (hs : (loadSteps source dir t x).Completes) {a : Nat} :
    (loadSteps source dir t x).Touches a ↔
      ∃ o, x.ProgramPlaces source dir o ∧ a = t.address o := by
  have hremarks : ∀ image : ProgramImage, ¬ Script.Touches (image.remarks t) a := by
    intro image
    unfold ProgramImage.remarks
    split <;> simp [Script.Touches]
  have h := x.loads_loadSteps source dir t
  generalize loadSteps source dir t x = steps at h hs ⊢
  simp only [Tile.ProgramPlaces]
  cases h with
  | absent core_eq => simp [core_eq]
  | unread core_eq unread => simp [core_eq, unread, loadSteps.not_touches_failed]
  | placed core_eq read fits =>
    rw [Script.touches_append,
      ProgramImage.touches_placeSteps (Script.completes_append.mp hs).2]
    simp only [core_eq, Option.some.injEq, exists_eq_left', read, Except.ok.injEq, fits, true_and]
    constructor
    · rintro (h | ⟨s, hm, o, ho, ha⟩)
      · exact absurd h (hremarks _)
      · exact ⟨o, ⟨s, hm, ho⟩, ha⟩
    · rintro ⟨o, ⟨s, hm, ho⟩, ha⟩
      exact .inr ⟨s, hm, o, ho, ha⟩
  | rejected core_eq read rejected =>
    simp [core_eq, read, rejected, hremarks, loadSteps.not_touches_failed]
  | broken =>
    exact absurd (Script.completes_append.mp hs).2 (Script.not_completes_fault _)

/-- No program stops the run at this tile: if it has one, its file can be trusted and the places of
its segments can be computed. -/
structure Tile.Loadable (source : ProgramSource) (dir : String) (x : Tile) : Prop where
  trusted : ∀ core cause, x.core = some core →
    source (programPath dir x.column x.row core.programFile) = .error cause → cause.isFatal = false
  computable : ∀ core image, x.core = some core →
    source (programPath dir x.column x.row core.programFile) = .ok image →
    ∀ s ∈ image.segments, ∀ f, s.verdict ≠ .broken f

theorem Tile.Loadable.of_core_eq_none {source : ProgramSource} {dir : String} {x : Tile}
    (h : x.core = none) : x.Loadable source dir := by
  constructor
  · intro core cause hcore
    rw [h] at hcore
    cases hcore
  · intro core image hcore
    rw [h] at hcore
    cases hcore

theorem loadSteps.completes_failed {t : TileId} {path : String} {cause : LoadError}
    (h : cause.isFatal = false) : (failed t path cause).Completes := by
  rw [failed, if_neg (by simp [h])]
  simp [Step.stop?]

theorem completes_loadSteps {source : ProgramSource} {dir : String} {t : TileId} {x : Tile}
    (hc : 0 < t.column) (hl : x.Loadable source dir) :
    (loadSteps source dir t x).Completes := by
  have hremarks : ∀ image : ProgramImage, Script.Completes (image.remarks t) := by
    intro image
    unfold ProgramImage.remarks
    split <;> simp [Step.stop?]
  have h := x.loads_loadSteps source dir t
  generalize loadSteps source dir t x = steps at h ⊢
  cases h with
  | absent => exact Script.completes_nil
  | unread core_eq unread => exact loadSteps.completes_failed (hl.trusted _ _ core_eq unread)
  | placed _ _ fits =>
    rw [Script.completes_append, Script.completes_flatMap]
    refine ⟨hremarks _, ?_⟩
    intro s hs
    exact Segment.completes_placeSteps hc (ProgramImage.verdict_eq_fits fits s hs)
  | rejected _ _ rejected =>
    exact Script.completes_append.mpr ⟨hremarks _,
      loadSteps.completes_failed (ProgramImage.isFatal_of_rejected rejected)⟩
  | broken core_eq read broken =>
    obtain ⟨s, hs, hsf⟩ := ProgramImage.verdict_eq_broken broken
    exact absurd hsf (hl.computable _ _ core_eq read s hs _)

/-! ## The phase -/

theorem Tile.stepsOn_compute {source : ProgramSource} {dir : String} {t : TileId} {x : Tile}
    (hk : x.kind = .compute) :
    x.stepsOn source dir t = clearSteps t x.kind.resetRegions ++ loadSteps source dir t x := by
  rw [stepsOn, hk]

theorem Tile.stepsOn_shim {source : ProgramSource} {dir : String} {t : TileId} {x : Tile}
    (hk : x.kind ≠ .compute) : x.stepsOn source dir t = clearSteps t x.kind.resetRegions := by
  unfold stepsOn
  split
  · exact absurd ‹_› hk
  · rfl

theorem Tile.touches_stepsOn {source : ProgramSource} {dir : String} {t : TileId} {x : Tile}
    (hs : (x.stepsOn source dir t).Completes) {a : Nat} :
    (x.stepsOn source dir t).Touches a ↔
      (∃ r ∈ x.kind.resetRegions, ∃ o ∈ r.words, a = t.address o) ∨
        x.kind = .compute ∧ ∃ o, x.ProgramPlaces source dir o ∧ a = t.address o := by
  by_cases hk : x.kind = .compute
  · rw [stepsOn_compute hk] at hs ⊢
    obtain ⟨hc, hl⟩ := Script.completes_append.mp hs
    rw [Script.touches_append, touches_clearSteps hc (TileKind.size_le_windowSize _),
      touches_loadSteps hl, and_iff_right hk]
  · rw [stepsOn_shim hk] at hs ⊢
    rw [touches_clearSteps hs (TileKind.size_le_windowSize _)]
    exact ⟨.inl, fun h => h.elim id fun hp => absurd hp.1 hk⟩

namespace Device

def locate (d : Device) (column row : UInt8) : Except Fault TileId :=
  TileId.at? d.arrayOffset.toNat column.toNat row.toNat

def sampleTile (d : Device) (h : d.arrayOffset.toNat < 0x400000000) : TileId :=
  ⟨d.arrayOffset.toNat, 3, 1, h, Nat.le_of_ble_eq_true rfl, Nat.le_of_ble_eq_true rfl⟩

/-- The words that are cleared on the declared compute tiles. -/
def ComputeWord (d : Device) (a : Nat) : Prop :=
  ∃ x ∈ d.tiles, x.kind = .compute ∧ ∃ t, d.locate x.column x.row = .ok t ∧
    ∃ r ∈ computeRegions, ∃ o ∈ r.words, a = t.address o

/-- The words that are cleared on the declared shim tiles, each by its kind. -/
def ShimWord (d : Device) (a : Nat) : Prop :=
  ∃ x ∈ d.tiles, x.kind ≠ .compute ∧ ∃ t, d.locate x.column x.row = .ok t ∧
    ∃ r ∈ shimRegions (x.kind == .shimNoc), ∃ o ∈ r.words, a = t.address o

/-- The words of the programs that are accepted. -/
def ProgramWord (d : Device) (source : ProgramSource) (dir : String) (a : Nat) : Prop :=
  ∃ x ∈ d.tiles, x.kind = .compute ∧ ∃ t, d.locate x.column x.row = .ok t ∧
    ∃ o, x.ProgramPlaces source dir o ∧ a = t.address o

theorem resetRegions_of_ne_compute {k : TileKind} (h : k ≠ .compute) :
    k.resetRegions = shimRegions (k == .shimNoc) := by
  cases k with
  | compute => exact absurd rfl h
  | shimNoc => rfl
  | shimPl => rfl

/-- The tile phase writes on each declared tile what it clears and the program that it accepts. -/
theorem touches_tileSteps_iff {d : Device} {source : ProgramSource} {dir : String}
    (hs : (d.tileSteps source dir).Completes) {a : Nat} :
    (d.tileSteps source dir).Touches a ↔ ∃ x ∈ d.tiles, ∃ t, d.locate x.column x.row = .ok t ∧
      ((∃ r ∈ x.kind.resetRegions, ∃ o ∈ r.words, a = t.address o) ∨
        x.kind = .compute ∧ ∃ o, x.ProgramPlaces source dir o ∧ a = t.address o) := by
  rw [tileSteps, Script.touches_flatMap]
  refine exists_congr fun x => and_congr_right fun hx => ?_
  rw [Tile.setupSteps_eq, Script.touches_onTile]
  refine exists_congr fun t => and_congr_right fun ht => Tile.touches_stepsOn ?_
  have hc := Script.completes_flatMap.mp hs x hx
  rwa [Tile.setupSteps_eq, Script.onTile_eq ht] at hc

theorem touches_tileSteps {d : Device} {source : ProgramSource} {dir : String}
    (hs : (d.tileSteps source dir).Completes) {a : Nat} :
    (d.tileSteps source dir).Touches a ↔
      d.ComputeWord a ∨ d.ShimWord a ∨ d.ProgramWord source dir a := by
  rw [touches_tileSteps_iff hs]
  constructor
  · rintro ⟨x, hx, t, ht, hr | hp⟩
    · by_cases hk : x.kind = .compute
      · rw [hk] at hr
        exact .inl ⟨x, hx, hk, t, ht, hr⟩
      · rw [resetRegions_of_ne_compute hk] at hr
        exact .inr (.inl ⟨x, hx, hk, t, ht, hr⟩)
    · exact .inr (.inr ⟨x, hx, hp.1, t, ht, hp.2⟩)
  · rintro (⟨x, hx, hk, t, ht, hr⟩ | ⟨x, hx, hk, t, ht, hr⟩ | ⟨x, hx, hk, t, ht, hp⟩)
    · refine ⟨x, hx, t, ht, .inl ?_⟩
      rw [hk]
      exact hr
    · refine ⟨x, hx, t, ht, .inl ?_⟩
      rw [resetRegions_of_ne_compute hk]
      exact hr
    · exact ⟨x, hx, t, ht, .inr ⟨hk, hp⟩⟩

/-- A declared tile can be located, unless the array is too far out. -/
theorem locate_of_declared {d : Device} (hv : d.Valid) {x : Tile} (hx : x ∈ d.tiles) :
    (∃ t, d.locate x.column x.row = .ok t ∧ 0 < t.column) ∨
      d.locate x.column x.row = .error .arrayTooLarge ∧ 0x400000000 ≤ d.arrayOffset.toNat := by
  obtain ⟨hcol, hrow⟩ := hv.tile_range x hx
  have hcol : x.column.toNat < 0x80 := Nat.lt_succ_of_le (UInt8.le_iff_toNat_le.mp hcol)
  have hrow : x.row.toNat < 0x20 := Nat.lt_succ_of_le (UInt8.le_iff_toNat_le.mp hrow)
  have hpos : 0 < x.column.toNat := Nat.pos_of_ne_zero fun h0 =>
    hv.tile_column_ne x hx (UInt8.toNat_inj.mp h0)
  rw [locate, TileId.at?, dif_pos hcol, dif_pos hrow]
  by_cases ha : d.arrayOffset.toNat < 0x400000000
  · rw [dif_pos ha]
    exact .inl ⟨_, rfl, hpos⟩
  · rw [dif_neg ha]
    exact .inr ⟨rfl, Nat.le_of_not_lt ha⟩

/-- The tile phase of a valid design runs to its end when no program stops it. -/
theorem completes_tileSteps_of_loads {d : Device} {source : ProgramSource} {dir : String}
    (hv : d.Valid) (ha : d.arrayOffset.toNat < 0x400000000)
    (hload : ∀ x ∈ d.tiles, x.kind = .compute → x.Loadable source dir) :
    (d.tileSteps source dir).Completes := by
  rw [tileSteps, Script.completes_flatMap]
  intro x hx
  obtain ⟨t, ht, hpos⟩ := (locate_of_declared hv hx).resolve_right fun h => Nat.not_lt.mpr h.2 ha
  rw [Tile.setupSteps_eq, Script.completes_onTile]
  refine ⟨t, ht, ?_⟩
  by_cases hk : x.kind = .compute
  · rw [Tile.stepsOn_compute hk, Script.completes_append]
    exact ⟨completes_clearSteps hpos _, completes_loadSteps hpos (hload x hx hk)⟩
  · rw [Tile.stepsOn_shim hk]
    exact completes_clearSteps hpos _

/-- The tile phase of a valid design without cores runs to its end. -/
theorem completes_tileSteps {d : Device} {source : ProgramSource} {dir : String} (hv : d.Valid)
    (ha : d.arrayOffset.toNat < 0x400000000) (hcore : ∀ x ∈ d.tiles, x.core = none) :
    (d.tileSteps source dir).Completes :=
  completes_tileSteps_of_loads hv ha fun x hx _ => .of_core_eq_none (hcore x hx)

end Device
end ArrayImage
