import ArrayImage.Proofs.Reports
import ArrayImage.Proofs.Switching

/-!
# ArrayImage.Proofs.Clean

What the items of a design do in a run that reports nothing.

A `Clean` script runs to its end without a report, and so does every part of it. An item has a
report for everything that keeps it from its registers, so in a clean run each of them does what it
is there for: ports have numbers, amsels are found, rules have slots and buffers have addresses
(the `of_clean` lemmas). The rules of the design are not needed for this.
-/

namespace ArrayImage

open RegisterMap

/-- A script runs to its end and reports nothing. -/
structure Script.Clean (s : Script) : Prop where
  completes : s.Completes
  silent : s.reports = []

namespace Script

/-- A clean script has no step that ends the run, and none that reports. -/
theorem clean_iff {s : Script} :
    s.Clean ↔ ∀ x ∈ s, x.stop?.isNone = true ∧ x.report?.isNone = true := by
  constructor
  · intro h x hx
    exact ⟨Option.isNone_iff_eq_none.mpr (completes_iff.mp h.completes x hx),
      Option.isNone_iff_eq_none.mpr (reports_eq_nil_iff.mp h.silent x hx)⟩
  · intro h
    constructor
    · rw [completes_iff]
      intro x hx
      exact Option.isNone_iff_eq_none.mp (h x hx).1
    · rw [reports_eq_nil_iff]
      intro x hx
      exact Option.isNone_iff_eq_none.mp (h x hx).2

instance (s : Script) : Decidable s.Clean :=
  decidable_of_iff _ clean_iff.symm

theorem clean_append {s s' : Script} : Clean (s ++ s') ↔ s.Clean ∧ s'.Clean := by
  constructor
  · intro h
    rw [clean_iff, List.forall_mem_append] at h
    exact ⟨clean_iff.mpr h.1, clean_iff.mpr h.2⟩
  · rintro ⟨hs, hs'⟩
    rw [clean_iff, List.forall_mem_append]
    exact ⟨clean_iff.mp hs, clean_iff.mp hs'⟩

theorem Clean.of_subset {s s' : Script} (h : s.Clean) (hsub : ∀ x ∈ s', x ∈ s) : Clean s' := by
  rw [clean_iff]
  intro x hx
  exact clean_iff.mp h x (hsub x hx)

theorem not_clean_report (t : TileId) (p : Problem) : ¬ Clean [.report t p] := by
  intro h
  cases h.silent

theorem not_clean_fault (f : Fault) : ¬ Clean [.fault f] := by
  intro h
  exact not_completes_fault f h.completes

end Script

/-! ## Stream switches -/

theorem Connect.of_clean {t : TileId} {c : Connect} (h : Script.Clean (c.steps t)) :
    ∃ slave master, c.source.number .slave t.isShim = .ok slave ∧
      c.dest.number .master t.isShim = .ok master := by
  unfold steps at h
  cases hs : c.source.number .slave t.isShim with
  | error e =>
    rw [hs] at h
    exact absurd h (Script.not_clean_report t _)
  | ok slave =>
    cases hm : c.dest.number .master t.isShim with
    | error e =>
      simp only [hs, hm] at h
      exact absurd h (Script.not_clean_report t _)
    | ok master => exact ⟨slave, master, rfl, rfl⟩

theorem MasterSet.of_clean {t : TileId} {s : Switchbox} {m : MasterSet}
    (h : Script.Clean (m.steps t s)) :
    ∃ master mask arbiter, m.dest.number .master t.isShim = .ok master ∧
      s.select m.amsels 0 none = .selected mask (some arbiter) := by
  unfold steps at h
  cases hm : m.dest.number .master t.isShim with
  | error e =>
    rw [hm] at h
    exact absurd h (Script.not_clean_report t _)
  | ok master =>
    simp only [hm] at h
    cases hsel : s.select m.amsels 0 none with
    | unknown name =>
      rw [hsel] at h
      exact absurd h (Script.not_clean_report t _)
    | fault f =>
      rw [hsel] at h
      exact absurd h (Script.not_clean_fault f)
    | selected mask arbiter =>
      cases arbiter with
      | none =>
        rw [hsel] at h
        exact absurd h (Script.not_clean_report t _)
      | some arbiter => exact ⟨master, mask, arbiter, rfl, rfl⟩

theorem PacketTable.of_clean {t : TileId} {s : Switchbox} {p : PacketTable}
    (h : Script.Clean (p.steps t s)) :
    ∃ slave, p.source.number .slave t.isShim = .ok slave ∧ p.rules.length ≤ slotsPerPort ∧
      ∀ r ∈ p.rules, ∃ a, s.amsel? r.amsel = some a := by
  unfold steps at h
  cases hs : p.source.number .slave t.isShim with
  | error e =>
    rw [hs] at h
    exact absurd h (Script.not_clean_report t _)
  | ok slave =>
    simp only [hs] at h
    have hle : p.rules.length ≤ slotsPerPort := by
      refine Nat.le_of_not_lt fun hlt => ?_
      rw [if_pos hlt] at h
      exact Script.not_clean_report t _ (h.of_subset fun x hx => List.mem_append_right _ hx)
    refine ⟨slave, rfl, hle, fun r hr => ?_⟩
    cases ha : s.amsel? r.amsel with
    | some a => exact ⟨a, rfl⟩
    | none =>
      obtain ⟨k, hk, rfl⟩ := List.getElem_of_mem hr
      have hrule : p.rules[k].steps t s slave k ∈ (p.rules.take slotsPerPort).mapIdx fun slot r =>
          r.steps t s slave slot := by
        rw [List.take_of_length_le hle]
        exact List.mem_mapIdx.mpr ⟨k, hk, rfl⟩
      have hclean : Script.Clean (p.rules[k].steps t s slave k) := h.of_subset fun x hx =>
        List.mem_append_left _ (List.mem_flatten.mpr ⟨_, hrule, hx⟩)
      rw [PacketRule.steps, ha] at hclean
      exact absurd hclean (Script.not_clean_report t _)

/-! ## DMA programs -/

theorem DmaBlock.of_clean {d : Device} {addresses : AddressSource} {t : TileId} {b : DmaBlock}
    (h : Script.Clean (b.describe d addresses t).2) (hb : b.transfers.isEmpty = false) :
    ∃ x, b.describe d addresses t = (some x, []) := by
  unfold describe at h ⊢
  simp only [hb, Bool.false_eq_true, if_false] at h ⊢
  cases hg : d.gather addresses b.transfers none none with
  | unresolved buffer =>
    simp only [hg] at h
    exact absurd h (Script.not_clean_report t _)
  | fault f =>
    simp only [hg] at h
    exact absurd h (Script.not_clean_fault f)
  | spans x y =>
    simp only [hg] at h ⊢
    have hnil := h.silent
    rw [Script.reports_map_report, List.map_eq_nil_iff] at hnil
    exact ⟨_, by rw [hnil]; rfl⟩

section Program

variable {d : Device} {addresses : AddressSource} {m : MemoryDma} {t : TileId}

theorem MemoryDma.isShim_of_clean (h : Script.Clean (m.steps d addresses t)) :
    t.isShim = false := by
  cases ht : t.isShim with
  | false => rfl
  | true =>
    rw [steps, if_pos ht] at h
    exact absurd h (Script.not_clean_report t _)

theorem MemoryDma.clean_describe (h : Script.Clean (m.steps d addresses t)) {b : DmaBlock}
    (hb : b ∈ m.blocks) : Script.Clean (b.describe d addresses t).2 := by
  rw [steps_eq (isShim_of_clean h) h.completes] at h
  refine h.of_subset fun x hx => ?_
  refine List.mem_append_left _ (List.mem_append_left _ (List.mem_append_right _ ?_))
  exact List.mem_flatMap.mpr ⟨b, hb, hx⟩

/-- The blocks that need a descriptor. -/
def MemoryDma.transferring (m : MemoryDma) : List DmaBlock :=
  m.blocks.filter fun b => !b.transfers.isEmpty

/-- In a clean run every block with transfers has its descriptor. -/
theorem MemoryDma.resolved_of_clean (h : Script.Clean (m.steps d addresses t)) :
    m.resolved addresses = m.transferring := by
  refine List.filter_congr fun b hb => ?_
  have hclean := clean_describe h hb
  rw [← DmaBlock.isSome_describe hclean.completes]
  cases he : b.transfers.isEmpty with
  | true =>
    rw [DmaBlock.describe, if_pos he]
    rfl
  | false =>
    obtain ⟨x, hx⟩ := DmaBlock.of_clean hclean he
    rw [hx]
    rfl

end Program

/-! ## Designs -/

namespace Device

variable {d : Device} {source : ProgramSource} {dir : String} {addresses : AddressSource}

theorem completes_phases (hs : (d.script source dir addresses).Completes) :
    (d.tileSteps source dir).Completes ∧ d.streamSteps.Completes ∧
      (d.dmaSteps addresses).Completes := by
  rw [script_eq, ← streamSteps_eq, Script.completes_append, Script.completes_append] at hs
  exact ⟨hs.1.1, hs.1.2, hs.2⟩

theorem exists_placed (hs : (d.tileSteps source dir).Completes) {c r : UInt8}
    (h : Validation.Declared d c r) :
    ∃ t, d.locate c r = .ok t ∧ t.isAt d.arrayOffset.toNat c.toNat r.toNat = true := by
  obtain ⟨t, ht⟩ := exists_locate_of_declared hs h
  exact ⟨t, ht, TileId.isAt_iff.mpr ht⟩

theorem exists_items (hv : d.Valid) (hs : (d.tileSteps source dir).Completes) {s : Switchbox}
    (h : s ∈ d.switchboxes) :
    ∃ t, d.locate s.column s.row = .ok t ∧ ∀ x ∈ s.items, x ∈ d.routingItems t := by
  obtain ⟨t, ht, hat⟩ := exists_placed hs (hv.switchbox_declared s h)
  refine ⟨t, ht, fun x hx => ?_⟩
  exact List.mem_flatMap.mpr ⟨s, List.mem_filter.mpr ⟨h, hat⟩, hx⟩

theorem exists_memory (hv : d.Valid) (hs : (d.tileSteps source dir).Completes) {m : MemoryDma}
    (h : m ∈ d.memories) : ∃ t, d.locate m.column m.row = .ok t ∧ m ∈ d.memoriesOn t := by
  obtain ⟨t, ht, hat⟩ := exists_placed hs (hv.memory m h).declared
  exact ⟨t, ht, List.mem_filter.mpr ⟨h, hat⟩⟩

theorem clean_item (h : (d.script source dir addresses).Clean) {t : TileId} {x : RoutingItem}
    (hx : x ∈ d.routingItems t) : Script.Clean (x.steps t) := by
  obtain ⟨s, hs, hxs⟩ := List.mem_flatMap.mp hx
  obtain ⟨hmem, hat⟩ := List.mem_filter.mp hs
  refine h.of_subset fun y hy => ?_
  have hne : (!s.isEmpty) = true := by
    cases he : s.isEmpty with
    | false => rfl
    | true =>
      rw [Switchbox.items_of_isEmpty he] at hxs
      cases hxs
  rw [script_eq]
  refine List.mem_append_left _ (List.mem_append_right _ (List.mem_append_left _ ?_))
  refine List.mem_flatMap.mpr ⟨s, List.mem_filter.mpr ⟨hmem, hne⟩, ?_⟩
  rw [Script.onTile_eq (TileId.isAt_iff.mp hat), Switchbox.steps_eq_flatMap]
  exact List.mem_flatMap.mpr ⟨x, hxs, hy⟩

theorem clean_program (h : (d.script source dir addresses).Clean) {t : TileId} {m : MemoryDma}
    (hm : m ∈ d.memoriesOn t) : Script.Clean (m.steps d addresses t) := by
  obtain ⟨hmem, hat⟩ := List.mem_filter.mp hm
  refine h.of_subset fun y hy => ?_
  rw [script_eq]
  refine List.mem_append_right _ (List.mem_flatMap.mpr ⟨m, hmem, ?_⟩)
  rw [Script.onTile_eq (TileId.isAt_iff.mp hat)]
  exact hy

/-- A clean report comes from a clean script. -/
theorem clean_of_compile {r : Report} (hc : d.compile source dir addresses = .ok r)
    (hr : r.isClean = true) : (d.script source dir addresses).Clean ∧
      d.configure source dir addresses =
        .ok ((d.script source dir addresses).applyTo .empty, []) := by
  obtain ⟨log, hconf, -⟩ := configure_of_compile hc
  rw [List.isEmpty_iff.mp hr] at hconf
  obtain ⟨hs, rfl, hdiags⟩ := configure_eq_ok_iff.mp hconf
  rw [Script.diagnostics_eq_reports hs, eq_comm, List.map_eq_nil_iff] at hdiags
  exact ⟨⟨hs, hdiags⟩, hconf⟩

theorem clean_tileSteps (hv : d.Valid) (ha : d.arrayOffset.toNat < 0x400000000)
    (hcore : ∀ x ∈ d.tiles, x.core = none) : (d.tileSteps source dir).Clean := by
  have hs : (d.tileSteps source dir).Completes := completes_tileSteps hv ha hcore
  refine ⟨hs, ?_⟩
  rw [tileSteps, Script.reports_flatMap, List.flatMap_eq_nil_iff]
  intro x hx
  obtain ⟨t, ht⟩ := exists_locate hs hx
  rw [Tile.setupSteps_eq, Script.onTile_eq ht]
  by_cases hk : x.kind = .compute
  · rw [Tile.stepsOn_compute hk, Script.reports_append, reports_clearSteps, loadSteps, hcore x hx]
    rfl
  · rw [Tile.stepsOn_shim hk, reports_clearSteps]

/-- A valid design without cores has a clean report when its routes and its DMA programs have
nothing to report. -/
theorem exists_clean_report (hv : d.Valid) (ha : d.arrayOffset.toNat < 0x400000000)
    (hcore : ∀ x ∈ d.tiles, x.core = none) (hstreams : d.streamSteps.Clean)
    (hdma : (d.dmaSteps addresses).Clean) :
    ∃ r, d.compile source dir addresses = .ok r ∧ r.isClean = true := by
  have hclean : (d.script source dir addresses).Clean := by
    rw [script_eq, ← streamSteps_eq, Script.clean_append, Script.clean_append]
    exact ⟨⟨clean_tileSteps hv ha hcore, hstreams⟩, hdma⟩
  obtain ⟨r, hc⟩ := exists_report hv hclean.completes
  obtain ⟨log, hconf, -⟩ := configure_of_compile hc
  obtain ⟨hs, -, hdiags⟩ := configure_eq_ok_iff.mp hconf
  refine ⟨r, hc, ?_⟩
  rw [Report.isClean, hdiags, Script.diagnostics_eq_reports hs, hclean.silent]
  rfl

def noPrograms : ProgramSource :=
  fun path => .error (.unreadable path)

def RunsClean (d : Device) (source : ProgramSource) (dir : String) (addresses : AddressSource)
    (log : WriteLog) : Prop :=
  d.issues = [] ∧ (∃ r, d.compile source dir addresses = .ok r ∧ r.isClean = true) ∧
    d.configure source dir addresses = .ok (log, [])

theorem runsClean (hv : d.issues = []) (ha : d.arrayOffset.toNat < 0x400000000)
    (hcore : ∀ x ∈ d.tiles, x.core = none) (hstreams : d.streamSteps.Clean)
    (hdma : (d.dmaSteps addresses).Clean) :
    (d.script source dir addresses).Completes ∧
      d.RunsClean source dir addresses ((d.script source dir addresses).applyTo .empty) := by
  obtain ⟨r, hc, hr⟩ : ∃ r, d.compile source dir addresses = .ok r ∧ r.isClean = true :=
    exists_clean_report (valid_of_issues hv) ha hcore hstreams hdma
  obtain ⟨h, hconf⟩ := clean_of_compile hc hr
  exact ⟨h.completes, hv, ⟨r, hc, hr⟩, hconf⟩

end Device
end ArrayImage
