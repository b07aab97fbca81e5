import ArrayImage.Proofs.Placement

/-!
# ArrayImage.Proofs.Locality

What a tile is configured to depends on its own part of the design only.

`Device.restrict` keeps the part of a design that sits at some coordinates. `restrict_configure`
says that a run of the restricted design gives exactly the registers and the diagnostics that the
whole run gives for this tile. So a tile never depends on another one, and entries of different
tiles can change places. The reason is one equation of scripts, `filter_script`: the steps about
some tiles are the script of the design that is cut down to these tiles.
-/

namespace ArrayImage

/-! ## Buffers and locks are all that a DMA program reads of the rest of a design -/

section Congruence

variable {d e : Device} (hb : e.buffers = d.buffers) (hl : e.locks = d.locks)

include hb in
theorem Device.elementBytes_congr (buffer : String) :
    e.elementBytes buffer = d.elementBytes buffer := by
  rw [elementBytes, elementBytes, buffer?, buffer?, hb]

include hb in
theorem Device.gather_congr (addresses : AddressSource) (ts : List Transfer)
    (a b : Option BufferSpan) : e.gather addresses ts a b = d.gather addresses ts a b := by
  induction ts generalizing a b with
  | nil => rfl
  | cons t ts ih => simp only [gather, ih, elementBytes_congr hb]

include hl in
theorem Device.lockGuard_congr (us : List LockUse) (g : Option LockGuard) :
    e.lockGuard us g = d.lockGuard us g := by
  induction us generalizing g with
  | nil => rfl
  | cons u us ih => simp only [lockGuard, ih, lock?, hl]

include hb hl in
theorem DmaBlock.describe_congr (addresses : AddressSource) (t : TileId) (block : DmaBlock) :
    block.describe e addresses t = block.describe d addresses t := by
  simp only [describe, Device.gather_congr hb, Device.blockLock, Device.lockGuard_congr hl]

include hb hl in
theorem MemoryDma.steps_congr (addresses : AddressSource) (t : TileId) (m : MemoryDma) :
    m.steps e addresses t = m.steps d addresses t := by
  simp only [steps, described, DmaBlock.describe_congr hb hl]

end Congruence

/-! ## Parts of designs, logs and diagnostics -/

def WriteLog.entriesAt (log : WriteLog) (array : UInt64) (column row : UInt8) :
    List (Nat × Word) :=
  log.entries.filter fun e =>
    (TileId.ofAddress e.1).isAt array.toNat column.toNat row.toNat

def diagnosticsAt (array : UInt64) (column row : UInt8) (diags : List Diagnostic) :
    List Diagnostic :=
  diags.filter fun g => g.tile.isAt array.toNat column.toNat row.toNat

namespace Device

/-- The part of a design at the coordinates that `q` holds of. -/
def keep (d : Device) (q : UInt8 → UInt8 → Bool) : Device :=
  { d with
    tiles := d.tiles.filter fun t => q t.column t.row
    memories := d.memories.filter fun m => q m.column m.row
    switchboxes := d.switchboxes.filter fun s => q s.column s.row
    shimMuxes := d.shimMuxes.filter fun m => q m.column m.row }

/-- The part of a design at one place. Buffers and locks stay, they belong to no run of a tile. -/
def restrict (d : Device) (column row : UInt8) : Device :=
  d.keep fun c r => c == column && r == row

variable {d : Device} {source : ProgramSource} {dir : String} {addresses : AddressSource}

/-! ## Scripts of a part -/

theorem filter_tileSteps {p : TileId → Bool} {q : UInt8 → UInt8 → Bool}
    (hs : (d.tileSteps source dir).Completes)
    (hq : ∀ c r t, TileId.at? d.arrayOffset.toNat c.toNat r.toNat = .ok t → q c r = p t) :
    (d.tileSteps source dir).filter (fun s => s.tile?.any p) =
      (d.keep q).tileSteps source dir :=
  Script.filter_flatMap_onTile hs (fun x t => x.isOn_stepsOn source dir t)
    fun x t h => hq x.column x.row t h

theorem filter_switchSteps {p : TileId → Bool} {q : UInt8 → UInt8 → Bool}
    (hs : d.switchSteps.Completes)
    (hq : ∀ c r t, TileId.at? d.arrayOffset.toNat c.toNat r.toNat = .ok t → q c r = p t) :
    d.switchSteps.filter (fun s => s.tile?.any p) = (d.keep q).switchSteps := by
  rw [switchSteps, Script.filter_flatMap_onTile hs (fun s t => s.isOn_steps t)
    fun s t h => hq s.column s.row t h, switchSteps, keep, List.filter_filter, List.filter_filter]
  simp only [Bool.and_comm]

theorem filter_muxSteps {p : TileId → Bool} {q : UInt8 → UInt8 → Bool}
    (hs : d.muxSteps.Completes)
    (hq : ∀ c r t, TileId.at? d.arrayOffset.toNat c.toNat r.toNat = .ok t → q c r = p t) :
    d.muxSteps.filter (fun s => s.tile?.any p) = (d.keep q).muxSteps :=
  Script.filter_flatMap_onTile hs (fun m t => m.isOn_steps t) fun m t h => hq m.column m.row t h

theorem filter_dmaSteps {p : TileId → Bool} {q : UInt8 → UInt8 → Bool}
    (hs : (d.dmaSteps addresses).Completes)
    (hq : ∀ c r t, TileId.at? d.arrayOffset.toNat c.toNat r.toNat = .ok t → q c r = p t) :
    (d.dmaSteps addresses).filter (fun s => s.tile?.any p) = (d.keep q).dmaSteps addresses := by
  rw [dmaSteps, Script.filter_flatMap_onTile hs (fun m t => m.isOn_steps d addresses t)
    fun m t h => hq m.column m.row t h, dmaSteps]
  simp only [MemoryDma.steps_congr (e := d.keep q) (d := d) rfl rfl]
  rfl

/-- The steps about some tiles are the script of the design cut down to these tiles. -/
theorem filter_script {p : TileId → Bool} {q : UInt8 → UInt8 → Bool}
    (hs : (d.script source dir addresses).Completes)
    (hq : ∀ c r t, TileId.at? d.arrayOffset.toNat c.toNat r.toNat = .ok t → q c r = p t) :
    (d.script source dir addresses).filter (fun s => s.tile?.any p) =
      (d.keep q).script source dir addresses := by
  rw [script_eq] at hs
  simp only [Script.completes_append] at hs
  obtain ⟨⟨ht, hw, hm⟩, hd⟩ := hs
  rw [script_eq, List.filter_append, List.filter_append, List.filter_append,
    filter_tileSteps ht hq, filter_switchSteps hw hq, filter_muxSteps hm hq, filter_dmaSteps hd hq,
    script_eq]

/-! ## Runs of a part -/

theorem configure_keep {log : WriteLog} {diags : List Diagnostic} {p : TileId → Bool}
    {q : UInt8 → UInt8 → Bool} (h : d.configure source dir addresses = .ok (log, diags))
    (hq : ∀ c r t, TileId.at? d.arrayOffset.toNat c.toNat r.toNat = .ok t → q c r = p t) :
    ∃ log', (d.keep q).configure source dir addresses =
        .ok (log', diags.filter fun g => p g.tile) ∧
      ∀ a, log'.get? a = if p (TileId.ofAddress a) then log.get? a else none := by
  obtain ⟨hs, rfl, rfl⟩ := configure_eq_ok_iff.mp h
  have hk := filter_script hs hq
  refine ⟨_, configure_eq_ok_iff.mpr ⟨hk ▸ hs.filter _, rfl, ?_⟩, fun a => ?_⟩
  · rw [← hk, Script.diagnostics_filter_tile hs]
  · rw [Script.applyTo, ← hk, Script.writes_filter_tile hs, WriteLog.get?_applyAll_filter_tile,
      WriteLog.get?_empty, Script.applyTo]

theorem beq_coordinates {a : Nat} {c r x y : UInt8} {t : TileId}
    (h : TileId.at? a x.toNat y.toNat = .ok t) :
    (x == c && y == r) = t.isAt a c.toNat r.toNat := by
  obtain ⟨ha, hc, hr⟩ := TileId.at?_eq_ok h
  rw [Bool.eq_iff_iff, TileId.isAt, ha, hc, hr]
  simp [← UInt8.toNat_inj]

theorem keep_all (d : Device) : d.keep (fun _ _ => true) = d := by
  have hf : ∀ {α : Type} (l : List α), l.filter (fun _ => true) = l :=
    fun l => List.filter_eq_self.mpr fun _ _ => rfl
  simp only [keep, hf]

theorem get?_eq_none_of_array_ne {log : WriteLog} {diags : List Diagnostic}
    (h : d.configure source dir addresses = .ok (log, diags)) {a : Nat}
    (ha : (TileId.ofAddress a).array ≠ d.arrayOffset.toNat) : log.get? a = none := by
  obtain ⟨log', hc, hget⟩ := configure_keep (p := fun t => t.array == d.arrayOffset.toNat)
    (q := fun _ _ => true) h fun c r t ht => by simp [(TileId.at?_eq_ok ht).1]
  rw [keep_all, h] at hc
  rw [(Prod.mk.inj (Except.ok.inj hc)).1, hget, if_neg (by simpa using ha)]

/-! ## One tile -/

/-- `e` is `d` with entries of different tiles in another order: at each place both have the same
entries, in the same order. -/
def Reordered (e d : Device) : Prop :=
  ∀ column row, e.restrict column row = d.restrict column row

theorem completes_flatMap_of_filter {α : Type} {l : List α} {c r : α → UInt8} {f : α → Script}
    (h : ∀ x y, Script.Completes ((l.filter fun i => c i == x && r i == y).flatMap f)) :
    Script.Completes (l.flatMap f) := by
  rw [Script.completes_flatMap]
  intro i hi
  refine Script.completes_flatMap.mp (h (c i) (r i)) i ?_
  rw [List.mem_filter]
  exact ⟨hi, by simp⟩

theorem completes_of_restrict
    (h : ∀ c r, ((d.restrict c r).script source dir addresses).Completes) :
    (d.script source dir addresses).Completes := by
  simp only [script_eq, Script.completes_append] at h ⊢
  refine ⟨⟨completes_flatMap_of_filter fun c r => (h c r).1.1, ?_,
    completes_flatMap_of_filter fun c r => (h c r).1.2.2⟩, ?_⟩
  · refine completes_flatMap_of_filter (c := Switchbox.column) (r := Switchbox.row) fun c r => ?_
    have := (h c r).1.2.1
    rw [switchSteps, restrict, keep, List.filter_filter] at this
    rw [List.filter_filter]
    simpa only [Bool.and_comm] using this
  · refine completes_flatMap_of_filter (c := MemoryDma.column) (r := MemoryDma.row) fun c r => ?_
    have := (h c r).2
    simp only [dmaSteps, MemoryDma.steps_congr (e := d.restrict c r) (d := d) rfl rfl] at this
    exact this

theorem restrict_configure {log : WriteLog} {diags : List Diagnostic}
    (h : d.configure source dir addresses = .ok (log, diags)) (c r : UInt8) :
    ∃ log', (d.restrict c r).configure source dir addresses =
        .ok (log', diags.filter fun g => g.tile.isAt d.arrayOffset.toNat c.toNat r.toNat) ∧
      ∀ a, log'.get? a =
        if (TileId.ofAddress a).isAt d.arrayOffset.toNat c.toNat r.toNat then log.get? a
        else none :=
  configure_keep h fun _ _ _ ht => beq_coordinates ht

theorem reordered_configure {e : Device} {log : WriteLog} {diags : List Diagnostic}
    (h : d.configure source dir addresses = .ok (log, diags)) (he : e.Reordered d) :
    ∃ diags', e.configure source dir addresses = .ok (log, diags') := by
  have hs : (e.script source dir addresses).Completes := completes_of_restrict fun c r => by
    obtain ⟨_, hr, _⟩ := restrict_configure h c r
    rw [he c r]
    exact (configure_eq_ok_iff.mp hr).1
  have hc := configure_eq_ok_iff.mpr ⟨hs, rfl, rfl⟩
  have ha : (e.restrict 0 0).arrayOffset = (d.restrict 0 0).arrayOffset := by rw [he]
  change e.arrayOffset = d.arrayOffset at ha
  suffices hl : (e.script source dir addresses).applyTo .empty = log from ⟨_, hl ▸ hc⟩
  apply WriteLog.ext_get?
  intro a
  by_cases hda : (TileId.ofAddress a).array = d.arrayOffset.toNat
  · -- both designs have the same part on the tile of this address
    obtain ⟨c, r, hat⟩ := TileId.exists_isAt (TileId.ofAddress a)
    rw [hda] at hat
    obtain ⟨log₁, h₁, hget₁⟩ := restrict_configure h c r
    obtain ⟨log₂, h₂, hget₂⟩ := restrict_configure hc c r
    rw [he, h₁] at h₂
    have hlog : log₁ = log₂ := (Prod.mk.inj (Except.ok.inj h₂)).1
    have hd := hget₁ a
    have hee := hget₂ a
    rw [if_pos hat] at hd
    rw [ha, if_pos hat] at hee
    rw [← hee, ← hd, hlog]
  · rw [get?_eq_none_of_array_ne h hda, get?_eq_none_of_array_ne hc (by rwa [ha])]

/-- The run of `d` that ended with `log` and `diags` treats every tile on its own. -/
structure TileLocal (d : Device) (source : ProgramSource) (dir : String)
    (addresses : AddressSource) (log : WriteLog) (diags : List Diagnostic) : Prop where
  /-- What the run does to a tile is what the run of the part of the design there does. -/
  part : ∀ column row, ∃ log',
    (d.restrict column row).configure source dir addresses =
      .ok (log', diagnosticsAt d.arrayOffset column row diags) ∧
    log'.entries = log.entriesAt d.arrayOffset column row
  /-- A part keeps the declared addresses, so these can be the address source of both runs. -/
  sameAddresses : ∀ column row, (d.restrict column row).addressOf? = d.addressOf?
  /-- A design with the same part at some place does the same there. -/
  independent : ∀ (e : Device) (log' : WriteLog) (diags' : List Diagnostic),
    e.configure source dir addresses = .ok (log', diags') →
    ∀ column row, e.restrict column row = d.restrict column row →
      log'.entriesAt d.arrayOffset column row = log.entriesAt d.arrayOffset column row ∧
      diagnosticsAt d.arrayOffset column row diags' = diagnosticsAt d.arrayOffset column row diags
  /-- Entries of different tiles can change places. -/
  reorder : ∀ e : Device, e.Reordered d →
    ∃ diags', e.configure source dir addresses = .ok (log, diags')

/-- Every run that does not end early treats every tile on its own. -/
theorem configure_tileLocal {log : WriteLog} {diags : List Diagnostic}
    (h : d.configure source dir addresses = .ok (log, diags)) :
    d.TileLocal source dir addresses log diags where
  part c r := by
    obtain ⟨log', hr, hget⟩ := restrict_configure h c r
    exact ⟨log', hr, WriteLog.entries_of_get?_filter hget⟩
  sameAddresses _ _ := rfl
  independent e log' diags' h' c r he := by
    have ha : (e.restrict c r).arrayOffset = (d.restrict c r).arrayOffset := by rw [he]
    change e.arrayOffset = d.arrayOffset at ha
    obtain ⟨log₁, h₁, hget₁⟩ := restrict_configure h c r
    obtain ⟨log₂, h₂, hget₂⟩ := restrict_configure h' c r
    rw [he, h₁, ha] at h₂
    obtain ⟨hlog, hdiags⟩ := Prod.mk.inj (Except.ok.inj h₂)
    have hd := WriteLog.entries_of_get?_filter hget₁
    have he := WriteLog.entries_of_get?_filter hget₂
    rw [ha, ← hlog, hd] at he
    exact ⟨he.symm, hdiags.symm⟩
  reorder _ he := reordered_configure h he

def interleaved : Device where
  schemaVersion := "1.0"
  name := "interleaved"
  arrayOffset := 1
  tiles := [⟨3, 0, none, none⟩, ⟨4, 0, none, none⟩]
  buffers := [⟨"in", 3, 1, some 0x1000, 32⟩]
  locks := []
  memories :=
    [⟨3, 1, [⟨"fill", [⟨"in", .a, 0, 16⟩], [], none, some "fill"⟩], [⟨.s2mm, 0, "fill"⟩]⟩]
  switchboxes :=
    [⟨3, 0, [⟨⟨.south, 3⟩, ⟨.north, 0⟩⟩], [], [], []⟩,
      ⟨4, 0, [⟨⟨.trace, 0⟩, ⟨.north, 0⟩⟩], [], [], []⟩,
      ⟨3, 0, [⟨⟨.south, 7⟩, ⟨.north, 0⟩⟩], [], [], []⟩]
  shimMuxes := [⟨3, 0, [⟨⟨.dma, 0⟩, ⟨.north, 3⟩⟩]⟩]

theorem interleaved_tileLocal : ∃ log diags,
    interleaved.configure (fun path => .error (.unreadable path)) "." interleaved.addressOf? =
      .ok (log, diags) ∧
    interleaved.TileLocal (fun path => .error (.unreadable path)) "." interleaved.addressOf?
      log diags := by
  have hs : (interleaved.script (fun path => .error (.unreadable path)) "."
      interleaved.addressOf?).Completes := by
    unfold Script.Completes
    decide +kernel
  have hc := configure_eq_ok_iff.mpr ⟨hs, rfl, rfl⟩
  exact ⟨_, _, hc, configure_tileLocal hc⟩

end Device
end ArrayImage
