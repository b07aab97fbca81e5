import Mathlib.Data.List.Forall2
import ArrayImage.Proofs.Skeleton

/-!
# ArrayImage.Proofs.Reports

Which problems a run of a valid design still reports.

The rules of a design and the phases of a run look at the same ports, amsels, labels and channels
with different eyes. Item by item, `reports_steps` says what is left to report when the rules hold:
bundles that the switch does not have, packet tables with more rules than slots, buffers without an
address, and descriptors that are not supported as they are. So of all broken rules only the second
and the third are ever reported, once for each table and each block (`Device.brokenRules`,
`RulesAgree`).
-/

namespace ArrayImage

open RegisterMap

/-! ## Reports of scripts -/

def Step.report? : Step → Option (TileId × Problem)
  | report tile p => some (tile, p)
  | write _ | remark _ _ | fault _ | abort _ => none

@[simp] theorem Step.report?_put (t : TileId) (o : Nat) (u : Update) :
    (put t o u).report? = none := by
  unfold put
  cases Write.at? t o u <;> rfl

namespace Script

def reports (s : Script) : List (TileId × Problem) :=
  s.filterMap Step.report?

/-- The reports of broken rules. -/
def contracts (s : Script) : List (TileId × Problem) :=
  s.reports.filter fun x => x.2.kind = .contract

section

variable {s : Script} {t : TileId}

@[simp] theorem reports_nil : reports [] = [] := rfl

@[simp] theorem reports_append (s s' : Script) :
    reports (s ++ s') = s.reports ++ s'.reports :=
  List.filterMap_append

@[simp] theorem reports_flatMap {α : Type} (l : List α) (f : α → Script) :
    reports (l.flatMap f) = l.flatMap fun x => reports (f x) :=
  List.filterMap_flatMap

theorem reports_eq_nil_iff : s.reports = [] ↔ ∀ x ∈ s, x.report? = none :=
  List.filterMap_eq_nil_iff

theorem mem_reports_iff {p : Problem} : (t, p) ∈ s.reports ↔ .report t p ∈ s := by
  rw [reports, List.mem_filterMap]
  constructor
  · rintro ⟨x, hx, h⟩
    cases x <;> cases h
    exact hx
  · intro h
    exact ⟨_, h, rfl⟩

theorem reports_map_report (ps : List Problem) :
    reports (ps.map (Step.report t)) = ps.map (t, ·) := by
  rw [reports, List.filterMap_map, ← List.filterMap_eq_map']
  rfl

theorem diagnostics_eq_reports (h : s.Completes) :
    s.diagnostics = s.reports.map fun x => x.2.on x.1 := by
  rw [h.diagnostics_eq, reports, List.map_filterMap]
  congr 1
  funext x
  cases x <;> rfl

theorem diagnostics_filter_contract (h : s.Completes) :
    s.diagnostics.filter (fun g => g.kind = .contract) = s.contracts.map fun x => x.2.on x.1 := by
  rw [diagnostics_eq_reports h, contracts, List.filter_map]
  rfl

@[simp] theorem contracts_append (s s' : Script) :
    contracts (s ++ s') = s.contracts ++ s'.contracts := by
  rw [contracts, reports_append, List.filter_append]
  rfl

@[simp] theorem contracts_flatMap {α : Type} (l : List α) (f : α → Script) :
    contracts (l.flatMap f) = l.flatMap fun x => contracts (f x) := by
  rw [contracts, reports_flatMap, List.filter_flatMap]
  rfl

theorem contracts_of_reports_nil (h : s.reports = []) : s.contracts = [] := by
  rw [contracts, h]
  rfl

end
end Script

/-! ## Tiles -/

theorem Script.reports_clear (t : TileId) (start length : Nat) :
    (clear t start length).reports = [] := by
  simp only [clear]
  split
  · rfl
  · split
    · rfl
    · cases checkedAdd 32 start length with
      | error fault => rfl
      | ok last => simp [reports, List.filterMap_map]

theorem reports_clearSteps (t : TileId) (regions : List Region) :
    (clearSteps t regions).reports = [] := by
  simp [clearSteps, Script.reports_clear]

theorem Segment.reports_placeSteps (t : TileId) (s : Segment) :
    Script.reports (s.placeSteps t) = [] := by
  unfold placeSteps
  cases s.destination with
  | error fault => rfl
  | ok dest =>
    rw [Script.reports_eq_nil_iff]
    intro x hx
    obtain ⟨i, hi, rfl⟩ := List.mem_mapIdx.mp hx
    exact Step.report?_put _ _ _

theorem loadSteps.contracts_failed (t : TileId) (path : String) (cause : LoadError) :
    Script.contracts (failed t path cause) = [] := by
  unfold failed
  split <;> rfl

/-- A program that is left out breaks no rule of the design. -/
theorem contracts_loadSteps (source : ProgramSource) (dir : String) (t : TileId) (x : Tile) :
    Script.contracts (loadSteps source dir t x) = [] := by
  have hremarks : ∀ image : ProgramImage, Script.contracts (image.remarks t) = [] := by
    intro image
    unfold ProgramImage.remarks
    split <;> rfl
  have h := x.loads_loadSteps source dir t
  generalize loadSteps source dir t x = steps at h ⊢
  cases h with
  | absent => rfl
  | unread => exact loadSteps.contracts_failed t _ _
  | placed =>
    rw [Script.contracts_append, hremarks, List.nil_append]
    exact Script.contracts_of_reports_nil (by simp [Segment.reports_placeSteps])
  | rejected => rw [Script.contracts_append, hremarks, loadSteps.contracts_failed, List.nil_append]
  | broken =>
    rw [Script.contracts_append, hremarks]
    rfl

theorem Tile.contracts_stepsOn (source : ProgramSource) (dir : String) (t : TileId) (x : Tile) :
    Script.contracts (x.stepsOn source dir t) = [] := by
  have hclear : ∀ regions, (clearSteps t regions).contracts = [] := fun regions =>
    Script.contracts_of_reports_nil (reports_clearSteps t regions)
  unfold stepsOn
  split
  · rw [Script.contracts_append, hclear, contracts_loadSteps]
    rfl
  · exact hclear _

/-! ## Stream switches and shim muxes -/

theorem Port.number_of_inRange {p : Port} {side : Side} {shim : Bool} (h : p.InRange side shim) :
    p.number side shim =
      match p.bundle.ports side shim with
      | none => .error (.unmapped p.bundle)
      | some range => .ok (range.first + p.index.toNat) := by
  unfold number
  cases hr : p.bundle.ports side shim with
  | none => rfl
  | some range => exact if_pos (h range hr)

/-- A circuit is reported when the switch does not have one of its bundles. -/
theorem Connect.reports_steps {t : TileId} {c : Connect} (hs : c.source.InRange .slave t.isShim)
    (hd : c.dest.InRange .master t.isShim) :
    Script.reports (c.steps t) =
      match c.source.bundle.ports .slave t.isShim, c.dest.bundle.ports .master t.isShim with
      | none, _ => [(t, .route (.unmapped c.source.bundle))]
      | some _, none => [(t, .route (.unmapped c.dest.bundle))]
      | some _, some _ => [] := by
  rw [steps, Port.number_of_inRange hs, Port.number_of_inRange hd]
  cases c.source.bundle.ports .slave t.isShim with
  | none => rfl
  | some slaves =>
    cases c.dest.bundle.ports .master t.isShim with
    | none => rfl
    | some masters => simp [Script.reports]

theorem Switchbox.select_ne_unknown {s : Switchbox} {names : List String} {mask : Word}
    {arbiter : Option UInt8} (h : ∀ name ∈ names, (s.amsel? name).isSome) (name : String) :
    s.select names mask arbiter ≠ .unknown name := by
  induction names generalizing mask arbiter with
  | nil => exact nofun
  | cons x names ih =>
    obtain ⟨a, ha⟩ := Option.isSome_iff_exists.mp (h x List.mem_cons_self)
    rw [select, ha]
    simp only
    split
    · exact ih fun y hy => h y (List.mem_cons_of_mem _ hy)
    · exact nofun

theorem Switchbox.select_arbiter {s : Switchbox} {names : List String} {mask mask' : Word}
    {arbiter arbiter' : Option UInt8} (h : s.select names mask arbiter = .selected mask' arbiter')
    (hne : names ≠ [] ∨ arbiter.isSome) : arbiter'.isSome := by
  induction names generalizing mask arbiter with
  | nil =>
    cases h
    exact hne.resolve_left fun hn => hn rfl
  | cons x names ih =>
    rw [select] at h
    cases ha : s.amsel? x with
    | none =>
      rw [ha] at h
      cases h
    | some a =>
      simp only [ha] at h
      split at h
      · exact ih h (.inr rfl)
      · cases h

/-- A master set is reported when the switch does not have its bundle. -/
theorem MasterSet.reports_steps {t : TileId} {s : Switchbox} {m : MasterSet}
    (hd : m.dest.InRange .master t.isShim) (hne : m.amsels ≠ [])
    (hk : ∀ name ∈ m.amsels, (s.amsel? name).isSome) :
    Script.reports (m.steps t s) =
      match m.dest.bundle.ports .master t.isShim with
      | none => [(t, .route (.unmapped m.dest.bundle))]
      | some _ => [] := by
  rw [steps, Port.number_of_inRange hd]
  cases m.dest.bundle.ports .master t.isShim with
  | none => rfl
  | some masters =>
    simp only
    cases hsel : s.select m.amsels 0 none with
    | unknown name => exact absurd hsel (Switchbox.select_ne_unknown hk name)
    | fault f => rfl
    | selected mask arbiter =>
      cases arbiter with
      | none => cases Switchbox.select_arbiter hsel (.inl hne)
      | some arbiter => simp [Script.reports]

theorem PacketRule.reports_steps {t : TileId} {s : Switchbox} {slave slot : Nat} {r : PacketRule}
    (hk : (s.amsel? r.amsel).isSome) : Script.reports (r.steps t s slave slot) = [] := by
  obtain ⟨a, ha⟩ := Option.isSome_iff_exists.mp hk
  simp [steps, ha, Script.reports]

/-- A packet table is reported when the switch does not have its bundle, and when it has more rules
than its port has slots. -/
theorem PacketTable.reports_steps {t : TileId} {s : Switchbox} {p : PacketTable}
    (hs : p.source.InRange .slave t.isShim) (hk : ∀ r ∈ p.rules, (s.amsel? r.amsel).isSome) :
    Script.reports (p.steps t s) =
      match p.source.bundle.ports .slave t.isShim with
      | none => [(t, .route (.unmapped p.source.bundle))]
      | some _ => if slotsPerPort < p.rules.length then [(t, .tooManyRules p.source)] else [] := by
  rw [steps, Port.number_of_inRange hs]
  cases p.source.bundle.ports .slave t.isShim with
  | none => rfl
  | some slaves =>
    have hrules : Script.reports ((p.rules.take slotsPerPort).mapIdx fun slot r =>
        r.steps t s (slaves.first + p.source.index.toNat) slot).flatten = [] := by
      rw [Script.reports_eq_nil_iff]
      intro x hx
      obtain ⟨ys, hys, hxy⟩ := List.mem_flatten.mp hx
      obtain ⟨slot, hslot, rfl⟩ := List.mem_mapIdx.mp hys
      have hr := hk _ (List.mem_of_mem_take (List.getElem_mem hslot))
      exact Script.reports_eq_nil_iff.mp (PacketRule.reports_steps hr) x hxy
    simp only [Script.reports_append, hrules, List.nil_append]
    split <;> rfl

theorem Connect.muxBits_error_kind {c : Connect} {e : RouteError} (h : c.muxBits = .error e) :
    e.kind = .unimplemented := by
  have hselect : ∀ {b : Bundle} {e : RouteError}, b.muxSelect = .error e →
      e.kind = .unimplemented := by
    intro b e hb
    cases b <;> cases hb <;> rfl
  have hdemux : ∀ {i : UInt8} {e : RouteError}, demuxShift i = .error e →
      e.kind = .unimplemented := by
    intro i e hi
    unfold demuxShift at hi
    repeat' split at hi
    all_goals cases hi
    rfl
  have hmux : ∀ {i : UInt8} {e : RouteError}, muxShift i = .error e →
      e.kind = .unimplemented := by
    intro i e hi
    unfold muxShift at hi
    repeat' split at hi
    all_goals cases hi
    rfl
  unfold muxBits at h
  split at h
  · cases hs : demuxShift c.source.index with
    | error f =>
      rw [hs] at h
      cases h
      exact hdemux hs
    | ok shift =>
      cases hb : c.dest.bundle.muxSelect with
      | error f =>
        rw [hs, hb] at h
        cases h
        exact hselect hb
      | ok select =>
        rw [hs, hb] at h
        cases h
  · split at h
    · cases hs : muxShift c.dest.index with
      | error f =>
        rw [hs] at h
        cases h
        exact hmux hs
      | ok shift =>
        cases hb : c.source.bundle.muxSelect with
        | error f =>
          rw [hs, hb] at h
          cases h
          exact hselect hb
        | ok select =>
          rw [hs, hb] at h
          cases h
    · cases h

/-- What a shim mux cannot do is not supported, but breaks no rule. -/
theorem Connect.contracts_muxSteps (t : TileId) (c : Connect) :
    Script.contracts (c.muxSteps t) = [] := by
  unfold muxSteps
  cases hb : c.muxBits with
  | error e =>
    have hk := muxBits_error_kind hb
    simp [Script.contracts, Script.reports, Step.report?, Problem.kind, hk]
  | ok bits =>
    cases bits with
    | none => rfl
    | some p => simp [Script.contracts, Script.reports]

/-- A table has a port on the switch, but more rules than the port has slots. -/
def PacketTable.isOverfull (shim : Bool) (p : PacketTable) : Bool :=
  (p.source.bundle.ports .slave shim).isSome && decide (slotsPerPort < p.rules.length)

def Switchbox.brokenRules (s : Switchbox) : List Problem :=
  (s.packetTables.filter fun p => p.isOverfull (s.row == 0)).map fun p => .tooManyRules p.source

theorem Switchbox.contracts_steps {t : TileId} {s : Switchbox} (hs : s.Valid)
    (ht : t.isShim = (s.row == 0)) :
    Script.contracts (s.steps t) = s.brokenRules.map (t, ·) := by
  have hconnects : ∀ c ∈ s.connects, Script.contracts (c.steps t) = [] := by
    intro c hc
    rw [Script.contracts, Connect.reports_steps (ht ▸ hs.source_inRange c hc)
      (ht ▸ hs.dest_inRange c hc)]
    split <;> rfl
  have hsets : ∀ m ∈ s.masterSets, Script.contracts (m.steps t s) = [] := by
    intro m hm
    rw [Script.contracts, MasterSet.reports_steps (ht ▸ hs.master_inRange m hm)
      (hs.amsels_ne_nil m hm) (hs.amsels_known m hm)]
    split <;> rfl
  have htables : ∀ p ∈ s.packetTables, Script.contracts (p.steps t s) =
      if p.isOverfull (s.row == 0) then [(t, .tooManyRules p.source)] else [] := by
    intro p hp
    rw [Script.contracts, PacketTable.reports_steps (ht ▸ hs.table_inRange p hp)
      (hs.rules_known p hp), PacketTable.isOverfull, ht]
    cases p.source.bundle.ports .slave (s.row == 0) with
    | none => rfl
    | some range =>
      by_cases hlen : slotsPerPort < p.rules.length
      · simp only [Option.isSome_some, hlen, decide_true, Bool.and_true, if_true]
        rfl
      · simp [hlen]
  rw [steps, Script.contracts_append, Script.contracts_append, Script.contracts_flatMap,
    Script.contracts_flatMap, Script.contracts_flatMap, List.flatMap_eq_nil_iff.mpr hconnects,
    List.flatMap_eq_nil_iff.mpr hsets, List.nil_append, List.nil_append, List.flatMap_congr htables,
    flatMap_ite_singleton, brokenRules, List.map_map]
  rfl

/-! ## DMA programs -/

/-- The first buffer of a block that has no address. -/
def DmaBlock.unresolved? (addresses : AddressSource) (b : DmaBlock) : Option String :=
  (b.transfers.find? fun x => (addresses x.buffer).isNone).map Transfer.buffer

theorem Device.find?_of_gather_unresolved {d : Device} {addresses : AddressSource}
    {ts : List Transfer} {a b : Option BufferSpan} {buffer : String}
    (h : d.gather addresses ts a b = .unresolved buffer) :
    (ts.find? fun x => (addresses x.buffer).isNone).map Transfer.buffer = some buffer := by
  induction ts generalizing a b with
  | nil => cases h
  | cons t ts ih =>
    unfold gather at h
    rw [List.find?_cons]
    cases ht : addresses t.buffer with
    | none =>
      simp only [ht] at h
      cases h
      rfl
    | some base =>
      simp only [ht] at h
      rw [Option.isNone_some]
      cases hadd : checkedAdd 64 base.toNat t.offset.toNat with
      | error f => simp [hadd] at h
      | ok address =>
        simp only [hadd] at h
        cases hslot : t.slot with
        | a =>
          simp only [hslot] at h
          exact ih h
        | b =>
          simp only [hslot] at h
          exact ih h

theorem Device.exists_of_lockGuard_error {d : Device} {us : List LockUse} {g : Option LockGuard}
    {name : String} (h : d.lockGuard us g = .error name) : ∃ u ∈ us, d.lock? u.lock = none := by
  induction us generalizing g with
  | nil => cases h
  | cons u us ih =>
    unfold lockGuard at h
    cases hl : d.lock? u.lock with
    | none => exact ⟨u, List.mem_cons_self, hl⟩
    | some lock =>
      simp only [hl] at h
      have hrest : ∃ u ∈ us, d.lock? u.lock = none := by
        cases hu : u.action with
        | acquire =>
          simp only [hu] at h
          exact ih h
        | release =>
          simp only [hu] at h
          exact ih h
      obtain ⟨v, hv, hnone⟩ := hrest
      exact ⟨v, List.mem_cons_of_mem _ hv, hnone⟩

theorem pairProblems_kind {label : String} {a b : Option BufferSpan} {p : Problem}
    (h : p ∈ pairProblems label a b) : p.kind = .abMode := by
  unfold pairProblems at h
  split at h
  · rw [List.mem_append] at h
    rcases h with h | h
    all_goals
      split at h
      · rw [List.mem_singleton] at h
        subst h
        rfl
      · cases h
  · cases h

/-- Where all locks are known, a lock breaks no rule. -/
theorem Device.blockLock_kind {d : Device} {block : DmaBlock} {b : Option BufferSpan}
    (hv : block.Valid d) {p : Problem} (h : p ∈ (d.blockLock block b).2) :
    p.kind = .unimplemented := by
  unfold blockLock at h
  split at h
  · cases h
  · have honB : p ∈ (if b.isSome then [Problem.lockOnB block.label] else []) := by
      cases hg : d.lockGuard block.locks none with
      | error name =>
        obtain ⟨u, hu, hnone⟩ := exists_of_lockGuard_error hg
        have hknown := hv.locks_known u hu
        rw [hnone] at hknown
        cases hknown
      | ok lock => simpa only [hg] using h
    split at honB
    · rw [List.mem_singleton] at honB
      subst honB
      rfl
    · cases honB

/-- Of a valid block only a buffer without an address breaks a rule. -/
theorem DmaBlock.contracts_describe {d : Device} {addresses : AddressSource} {t : TileId}
    {b : DmaBlock} (hv : b.Valid d) (hs : Script.Completes (b.describe d addresses t).2) :
    Script.contracts (b.describe d addresses t).2 = ((b.unresolved? addresses).map fun buffer =>
      (t, .unresolvedBuffer b.label buffer)).toList := by
  unfold describe at hs ⊢
  unfold unresolved?
  cases he : b.transfers.isEmpty with
  | true =>
    rw [List.isEmpty_iff.mp he]
    rfl
  | false =>
    simp only [he, Bool.false_eq_true, if_false] at hs ⊢
    cases hg : d.gather addresses b.transfers none none with
    | unresolved buffer =>
      rw [Device.find?_of_gather_unresolved hg]
      rfl
    | fault f =>
      simp only [hg] at hs
      exact absurd hs (Script.not_completes_fault f)
    | spans x y =>
      have hnone : (b.transfers.find? fun x => (addresses x.buffer).isNone) = none := by
        rw [List.find?_eq_none]
        intro z hz
        simpa using Option.isSome_iff_ne_none.mp (Device.resolved_of_gather_spans hg z hz)
      rw [hnone, Script.contracts, Script.reports_map_report, List.filter_eq_nil_iff.mpr]
      · rfl
      intro q hq
      obtain ⟨p, hp, rfl⟩ := List.mem_map.mp hq
      rw [decide_eq_true_iff]
      rcases List.mem_append.mp hp with hp | hp
      · rw [pairProblems_kind hp]
        exact nofun
      · rw [Device.blockLock_kind hv hp]
        exact nofun

def MemoryDma.brokenRules (addresses : AddressSource) (m : MemoryDma) : List Problem :=
  m.blocks.filterMap fun b => (b.unresolved? addresses).map (.unresolvedBuffer b.label)

theorem reports_idleSteps (t : TileId) : (idleSteps t).reports = [] := by
  rw [idleSteps_eq]
  simp [Script.reports]

section Program

variable {d : Device} {addresses : AddressSource} {m : MemoryDma} {t : TileId}

/-- A valid program has no more blocks than descriptors, so none is turned away. -/
theorem MemoryDma.reports_tableSteps (hm : m.Valid d)
    (hs : (m.describeSteps d addresses t).Completes) :
    (m.tableSteps d addresses t).reports = [] := by
  rw [Script.reports_eq_nil_iff]
  intro x hx
  obtain ⟨p, hp, hx⟩ := List.mem_flatMap.mp hx
  obtain ⟨j, hj⟩ := List.mem_iff_getElem?.mp hp
  obtain ⟨hres, -, hslot⟩ := slotOf_described hm hs hj
  have hlt : j < descriptorCount :=
    Nat.lt_of_lt_of_le (List.getElem?_eq_some_iff.mp hres).1 (resolved_length_le hm)
  simp only [descriptorSteps, hslot, if_pos hlt] at hx
  rcases List.mem_append.mp hx with hx | hx
  · obtain ⟨y, -, rfl⟩ := List.mem_map.mp hx
    exact Step.report?_put _ _ _
  · rw [List.mem_singleton] at hx
    subst hx
    rfl

theorem MemoryDma.reports_startSteps (hm : m.Valid d) :
    (m.startSteps addresses t).reports = [] := by
  rw [startSteps, Script.reports_flatMap, List.flatMap_eq_nil_iff]
  intro s hs
  rw [ChannelStart.steps_eq hm hs]
  cases m.indexOf? addresses s.block with
  | none => rfl
  | some i => simp [Script.reports]

theorem MemoryDma.contracts_steps (hm : m.Valid d) (hb : ∀ b ∈ m.blocks, b.Valid d)
    (ht : t.isShim = false) (hs : Script.Completes (m.steps d addresses t)) :
    Script.contracts (m.steps d addresses t) = (m.brokenRules addresses).map (t, ·) := by
  have hdesc := completes_describeSteps ht hs
  rw [steps_eq ht hs, Script.contracts_append, Script.contracts_append, Script.contracts_append,
    Script.contracts_of_reports_nil (reports_idleSteps t),
    Script.contracts_of_reports_nil (reports_tableSteps hm hdesc),
    Script.contracts_of_reports_nil (reports_startSteps hm), List.nil_append, List.append_nil,
    List.append_nil, describeSteps, Script.contracts_flatMap, brokenRules, List.map_filterMap,
    List.filterMap_eq_flatMap_toList]
  refine List.flatMap_congr fun b hmem => ?_
  rw [DmaBlock.contracts_describe (hb b hmem) (Script.completes_flatMap.mp hdesc b hmem),
    Option.map_map]
  rfl

end Program

/-! ## Designs -/

namespace Device

variable {d : Device} {source : ProgramSource} {dir : String} {addresses : AddressSource}

/-- The rules that a valid design can still break, and the tiles where it does. -/
def brokenRules (d : Device) (addresses : AddressSource) : List (Coordinates × Problem) :=
  d.switchboxes.flatMap (fun s => s.brokenRules.map (⟨s.column, s.row⟩, ·)) ++
    d.memories.flatMap fun m => (m.brokenRules addresses).map (⟨m.column, m.row⟩, ·)

def IsLocated (d : Device) (y : TileId × Problem) (x : Coordinates × Problem) : Prop :=
  d.locate x.1.column x.1.row = .ok y.1 ∧ y.2 = x.2

/-- Items that break rules on their own tiles break them together, one item after the other. -/
theorem forall₂_contracts_onTile {α : Type} {l : List α} {c r : α → UInt8}
    {f : α → TileId → Script} {g : α → List Problem}
    (h : ∀ x ∈ l, ∃ t, d.locate (c x) (r x) = .ok t ∧ (f x t).contracts = (g x).map (t, ·)) :
    List.Forall₂ d.IsLocated
      (Script.contracts (l.flatMap fun x =>
        Script.onTile d.arrayOffset.toNat (c x).toNat (r x).toNat (f x)))
      (l.flatMap fun x => (g x).map (⟨c x, r x⟩, ·)) := by
  induction l with
  | nil => exact .nil
  | cons x l ih =>
    obtain ⟨t, ht, hx⟩ := h x List.mem_cons_self
    rw [List.flatMap_cons, List.flatMap_cons, Script.contracts_append, Script.onTile_eq ht, hx]
    refine List.rel_append ?_ (ih fun y hy => h y (List.mem_cons_of_mem _ hy))
    rw [List.forall₂_map_left_iff, List.forall₂_map_right_iff, List.forall₂_same]
    intro p _
    exact ⟨ht, rfl⟩

theorem exists_locate_of_declared (hs : (d.tileSteps source dir).Completes) {c r : UInt8}
    (h : Validation.Declared d c r) : ∃ t, d.locate c r = .ok t := by
  obtain ⟨x, hx, rfl, rfl⟩ := h
  exact exists_locate hs hx

theorem contracts_tileSteps (hs : (d.tileSteps source dir).Completes) :
    (d.tileSteps source dir).contracts = [] := by
  rw [tileSteps, Script.contracts_flatMap, List.flatMap_eq_nil_iff]
  intro x hx
  obtain ⟨t, ht⟩ := exists_locate hs hx
  rw [Tile.setupSteps_eq, Script.onTile_eq ht]
  exact x.contracts_stepsOn source dir t

theorem contracts_muxSteps (hs : d.muxSteps.Completes) : d.muxSteps.contracts = [] := by
  rw [muxSteps, Script.contracts_flatMap, List.flatMap_eq_nil_iff]
  intro m hm
  obtain ⟨t, ht, -⟩ := Script.completes_onTile.mp (Script.completes_flatMap.mp hs m hm)
  rw [Script.onTile_eq ht, Script.contracts_flatMap, List.flatMap_eq_nil_iff]
  intro c _
  exact c.contracts_muxSteps t

theorem contracts_switchSteps (hv : d.issues = []) (hs : (d.tileSteps source dir).Completes) :
    List.Forall₂ d.IsLocated d.switchSteps.contracts
      (d.switchboxes.flatMap fun s => s.brokenRules.map (⟨s.column, s.row⟩, ·)) := by
  have hempty : ∀ s : Switchbox, (!s.isEmpty) = false →
      s.brokenRules.map (((⟨s.column, s.row⟩ : Coordinates), ·)) = [] := by
    intro s hs
    rw [Bool.not_eq_false', Switchbox.isEmpty, Bool.and_eq_true, List.isEmpty_iff] at hs
    rw [Switchbox.brokenRules, hs.2]
    rfl
  rw [switchSteps, ← flatMap_filter_of_nil hempty]
  refine forall₂_contracts_onTile fun s hmem => ?_
  have hsb := (List.mem_filter.mp hmem).1
  obtain ⟨t, ht⟩ := exists_locate_of_declared hs ((valid_of_issues hv).switchbox_declared s hsb)
  exact ⟨t, ht, Switchbox.contracts_steps (switchbox_valid hv hsb) (TileId.isShim_of_at? ht)⟩

theorem contracts_dmaSteps (hv : d.issues = []) (hs : (d.dmaSteps addresses).Completes) :
    List.Forall₂ d.IsLocated (d.dmaSteps addresses).contracts
      (d.memories.flatMap fun m => (m.brokenRules addresses).map (⟨m.column, m.row⟩, ·)) := by
  rw [dmaSteps]
  refine forall₂_contracts_onTile fun m hm => ?_
  obtain ⟨t, ht, hc⟩ := Script.completes_onTile.mp (Script.completes_flatMap.mp hs m hm)
  obtain ⟨hmv, hshim⟩ := isShim_of_mem_memoriesOn (valid_of_issues hv)
    (List.mem_filter.mpr ⟨hm, TileId.isAt_iff.mpr ht⟩)
  exact ⟨t, ht, MemoryDma.contracts_steps hmv (fun b hb => block_valid hv hm hb) hshim hc⟩

theorem contracts_script (hv : d.issues = []) (hs : (d.script source dir addresses).Completes) :
    List.Forall₂ d.IsLocated (d.script source dir addresses).contracts
      (d.brokenRules addresses) := by
  rw [script_eq] at hs ⊢
  simp only [Script.completes_append] at hs
  obtain ⟨⟨htiles, -, hmux⟩, hdma⟩ := hs
  rw [Script.contracts_append, Script.contracts_append, Script.contracts_append,
    contracts_tileSteps htiles, contracts_muxSteps hmux, List.nil_append, List.append_nil]
  exact List.rel_append (contracts_switchSteps hv htiles) (contracts_dmaSteps hv hdma)

theorem mem_brokenRules {x : Coordinates × Problem} (h : x ∈ d.brokenRules addresses) :
    (∃ p : Port, x.2 = .tooManyRules p) ∨ ∃ block buffer, x.2 = .unresolvedBuffer block buffer := by
  rcases List.mem_append.mp h with h | h
  · obtain ⟨s, -, h⟩ := List.mem_flatMap.mp h
    obtain ⟨q, hq, rfl⟩ := List.mem_map.mp h
    obtain ⟨p, -, rfl⟩ := List.mem_map.mp hq
    exact .inl ⟨_, rfl⟩
  · obtain ⟨m, -, h⟩ := List.mem_flatMap.mp h
    obtain ⟨q, hq, rfl⟩ := List.mem_map.mp h
    obtain ⟨b, -, hb⟩ := List.mem_filterMap.mp hq
    obtain ⟨buffer, -, rfl⟩ := Option.map_eq_some_iff.mp hb
    exact .inr ⟨_, _, rfl⟩

/-- The validator and the phases agree on all rules but two. -/
structure RulesAgree (d : Device) (source : ProgramSource) (dir : String)
    (addresses : AddressSource) (r : Report) : Prop where
  /-- What is reported as broken are the overfull tables, then the blocks with unknown buffers. -/
  reported : List.Forall₂
    (fun g x => ∃ t, d.locate x.1.column x.1.row = .ok t ∧ g = x.2.on t)
    (r.diagnostics.filter fun g => g.kind = .contract) (d.brokenRules addresses)
  /-- No step reports that a port, an amsel, a lock, a descriptor, a channel or a DMA is missing. -/
  agreed : ∀ t p, .report t p ∈ d.script source dir addresses → p.kind = .contract →
    (∃ port, p = .tooManyRules port) ∨ ∃ block buffer, p = .unresolvedBuffer block buffer

/-- In every report of a valid design the validator and the phases agree. -/
theorem compile_rulesAgree {r : Report} (hv : d.issues = [])
    (hc : d.compile source dir addresses = .ok r) : d.RulesAgree source dir addresses r := by
  obtain ⟨log, hconf, -⟩ := configure_of_compile hc
  obtain ⟨hs, -, hdiags⟩ := configure_eq_ok_iff.mp hconf
  have hrules : List.Forall₂ d.IsLocated (d.script source dir addresses).contracts
      (d.brokenRules addresses) := contracts_script hv hs
  constructor
  · rw [hdiags, Script.diagnostics_filter_contract hs, List.forall₂_map_left_iff]
    refine hrules.imp fun y x h => ⟨y.1, h.1, ?_⟩
    rw [h.2]
  · intro t p hp hk
    have hmem : (t, p) ∈ (d.script source dir addresses).contracts :=
      List.mem_filter.mpr ⟨Script.mem_reports_iff.mpr hp, decide_eq_true hk⟩
    obtain ⟨i, hi⟩ := List.mem_iff_get.mp hmem
    have hlt : i.val < (d.brokenRules addresses).length := hrules.length_eq ▸ i.isLt
    have hloc := hrules.get i.isLt hlt
    rw [show (d.script source dir addresses).contracts.get ⟨i.val, i.isLt⟩ = (t, p) from hi] at hloc
    rw [show p = _ from hloc.2]
    exact mem_brokenRules (List.get_mem _ _)

/-- Five rules on a port, on a port that the switch does not have, and on a full one; a program with
two blocks that have no address, of which one names two such buffers, and a surplus link. -/
def spilledRules : Device where
  schemaVersion := "1.0"
  name := "spilled"
  arrayOffset := 1
  tiles := [⟨3, 1, none, none⟩, ⟨3, 2, none, none⟩]
  buffers := [⟨"in", 3, 1, some 0x1000, 32⟩, ⟨"far", 3, 1, none, 32⟩, ⟨"off", 3, 1, none, 64⟩]
  locks := [⟨"lock", 3, 1, 4⟩]
  memories :=
    [⟨3, 1,
        [⟨"lost", [⟨"in", .a, 0, 16⟩, ⟨"far", .b, 0, 8⟩], [⟨"lock", .acquire, 1⟩], none, none⟩,
          ⟨"idle", [], [], none, some "lost"⟩,
          ⟨"pair", [⟨"in", .a, 0, 16⟩, ⟨"in", .b, 64, 8⟩], [⟨"lock", .release, 0⟩], none,
            some "lost"⟩,
          ⟨"gone", [⟨"off", .b, 0, 16⟩, ⟨"far", .a, 0, 16⟩], [], none, some "pair"⟩],
        [⟨.s2mm, 0, "lost"⟩, ⟨.mm2s, 1, "pair"⟩]⟩]
  switchboxes :=
    [⟨3, 2, [], [⟨"first", 1, 0⟩], [],
        [⟨⟨.south, 1⟩, List.replicate 5 ⟨31, 4, "first"⟩⟩,
          ⟨⟨.core, 0⟩, List.replicate 5 ⟨31, 4, "first"⟩⟩,
          ⟨⟨.south, 2⟩, List.replicate 4 ⟨31, 4, "first"⟩⟩]⟩]
  shimMuxes := []

theorem spilledRules_agree : ∃ r, spilledRules.issues = [] ∧
    spilledRules.compile (fun path => .error (.unreadable path)) "." spilledRules.addressOf? =
      .ok r ∧
    spilledRules.RulesAgree (fun path => .error (.unreadable path)) "." spilledRules.addressOf?
      r := by
  have hv : spilledRules.issues = [] := by decide +kernel
  have hcore : ∀ x ∈ spilledRules.tiles, x.core = none := by simp [spilledRules]
  have hs : (spilledRules.script (fun path => .error (.unreadable path)) "."
      spilledRules.addressOf?).Completes := by
    rw [script_eq, Script.completes_append, Script.completes_append, ← streamSteps_eq]
    refine ⟨⟨completes_tileSteps (valid_of_issues hv) (by decide) hcore, ?_⟩, ?_⟩
    · rw [Script.Completes]
      decide +kernel
    · rw [Script.Completes]
      decide +kernel
  obtain ⟨r, hc⟩ := exists_report (valid_of_issues hv) hs
  exact ⟨r, hv, hc, compile_rulesAgree hv hc⟩

/-- One table and two blocks break a rule, each block once. -/
example : spilledRules.brokenRules spilledRules.addressOf? =
    [(⟨3, 2⟩, .tooManyRules ⟨.south, 1⟩), (⟨3, 1⟩, .unresolvedBuffer "lost" "far"),
      (⟨3, 1⟩, .unresolvedBuffer "gone" "off")] := by
  decide +kernel

end Device
end ArrayImage
