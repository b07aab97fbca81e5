import ArrayImage.Proofs.Clean

/-!
# ArrayImage.Proofs.Retention

Which items of a design are still in the registers after a clean run.

A later write to a register replaces an earlier one, and nothing looks out for two items that want
the same register: not the rules of the design, not the phases. So a clean run keeps an item unless
a later item of its tile takes the register. `Device.KeepsLast` names the later items for each kind
of item: circuits and master sets to the same port, tables with as many rules on the same port,
programs with as many blocks, starts of the same channel, and any later program, which turns all
channels off. That everything is kept (`Device.KeepsAll`) is too much to ask
(`clean_not_keepsAll`).
-/

namespace ArrayImage

open RegisterMap

/-! ## Ports -/

namespace Port

theorem ports_disjoint : ∀ b ∈ [Bundle.dma, .south, .west, .north, .east],
    ∀ b' ∈ [Bundle.dma, .south, .west, .north, .east], ∀ side ∈ [Side.slave, .master],
    ∀ shim : Bool, ∀ range ∈ b.ports side shim, ∀ range' ∈ b'.ports side shim, b = b' ∨
      range.first + range.count ≤ range'.first ∨ range'.first + range'.count ≤ range.first := by
  decide

theorem mem_bundles {b : Bundle} {side : Side} {shim : Bool} {range : PortRange}
    (h : b.ports side shim = some range) : b ∈ [Bundle.dma, .south, .west, .north, .east] := by
  cases b with
  | dma | south | west | north | east => decide
  | core | fifo | plio | noc | trace | ctrl => cases side <;> cases shim <;> cases h

theorem mapped?_eq_some {p : Port} {side : Side} {shim : Bool} {n : Nat}
    (h : p.mapped? side shim = some n) : ∃ range, p.bundle.ports side shim = some range ∧
      p.index.toNat < range.count ∧ n = range.first + p.index.toNat := by
  unfold mapped? at h
  cases hr : p.bundle.ports side shim with
  | none =>
    rw [hr] at h
    cases h
  | some range =>
    simp only [hr] at h
    split at h
    · cases h
      exact ⟨range, rfl, ‹_›, rfl⟩
    · cases h

/-- No two ports of one side have the same number. -/
theorem mapped?_inj {p q : Port} {side : Side} {shim : Bool} {n : Nat}
    (hp : p.mapped? side shim = some n) (hq : q.mapped? side shim = some n) : p = q := by
  obtain ⟨range, hr, hi, rfl⟩ := mapped?_eq_some hp
  obtain ⟨range', hr', hi', he⟩ := mapped?_eq_some hq
  have hside : side ∈ [Side.slave, .master] := by cases side <;> decide
  have hb : p.bundle = q.bundle := by
    refine (ports_disjoint _ (mem_bundles hr) _ (mem_bundles hr') side hside shim range hr range'
      hr').resolve_right fun h => ?_
    omega
  have hrange : range = range' := by
    rw [hb, hr'] at hr
    exact (Option.some.inj hr).symm
  subst hrange
  have hindex : p.index = q.index := UInt8.toNat_inj.mp (Nat.add_left_cancel he)
  cases p
  cases q
  cases hb
  cases hindex
  rfl

end Port

/-! ## Items that are kept -/

def Connect.HeldIn (t : TileId) (log : WriteLog) (c : Connect) : Prop :=
  ∃ slave master, c.source.number .slave t.isShim = .ok slave ∧
    c.dest.number .master t.isShim = .ok master ∧
    log.get? (t.address (masterOffset master)) = some (StreamWord.circuitMaster (.ofNat slave))

/-- The master register of a master set has the selects and the arbiter of its amsels. -/
def MasterSet.HeldIn (t : TileId) (log : WriteLog) (s : Switchbox) (m : MasterSet) : Prop :=
  ∃ master mask arbiter, m.dest.number .master t.isShim = .ok master ∧
    s.select m.amsels 0 none = .selected mask (some arbiter) ∧
    log.get? (t.address (masterOffset master)) =
      some (StreamWord.packetMaster mask (.ofByte arbiter) (m.dest.bundle == .dma))

def PacketTable.HoldsRule (t : TileId) (log : WriteLog) (s : Switchbox) (p : PacketTable) (k : Nat)
    (r : PacketRule) : Prop :=
  ∃ slave a, p.source.number .slave t.isShim = .ok slave ∧ s.amsel? r.amsel = some a ∧
    k < slotsPerPort ∧
    log.get? (t.address (slotOffset slave k)) =
      some (StreamWord.packetSlot r.value r.mask a.msel a.arbiter)

def ChannelStart.HeldIn (t : TileId) (log : WriteLog) (i : Nat) (s : ChannelStart) : Prop :=
  log.get? (t.address (s.direction.queueOffset s.channel.toNat)) = some (.ofNat i) ∧
    log.get? (t.address (s.direction.controlOffset s.channel.toNat)) = some 1

namespace RoutingItem

/-- An item takes the master register of this port. -/
def Drives (dest : Port) : RoutingItem → Prop
  | connect c => c.dest = dest
  | masterSet _ m => m.dest = dest
  | packetTable _ _ => False

/-- An item takes slot `k` of this port. -/
def Matches (source : Port) (k : Nat) : RoutingItem → Prop
  | connect _ | masterSet _ _ => False
  | packetTable _ p => p.source = source ∧ k < p.rules.length

theorem masterWord?_eq_none {shim : Bool} {dest : Port} {n : Nat} {x : RoutingItem}
    (hn : dest.mapped? .master shim = some n) (hx : ¬ x.Drives dest) :
    x.masterWord? shim n = none := by
  cases x with
  | connect c =>
    rw [masterWord?]
    cases c.source.mapped? .slave shim with
    | none => rfl
    | some slave =>
      cases hd : c.dest.mapped? .master shim with
      | none => rfl
      | some master =>
        refine if_neg fun he => hx ?_
        subst he
        exact Port.mapped?_inj hd hn
  | masterSet s m =>
    rw [masterWord?]
    refine if_neg fun he => hx ?_
    exact Port.mapped?_inj he hn
  | packetTable s p => rfl

theorem slotWord?_eq_none {shim : Bool} {source : Port} {n k : Nat} {x : RoutingItem}
    (hn : source.mapped? .slave shim = some n) (hx : ¬ x.Matches source k) :
    x.slotWord? shim n k = none := by
  cases x with
  | connect c => rfl
  | masterSet s m => rfl
  | packetTable s p =>
    rw [slotWord?]
    by_cases hs : p.source.mapped? .slave shim = some n
    · have hlen : p.rules.length ≤ k := by
        refine Nat.le_of_not_lt fun hk => hx ⟨?_, hk⟩
        exact Port.mapped?_inj hs hn
      rw [if_pos hs, List.getElem?_eq_none hlen]
      rfl
    · exact if_neg hs

end RoutingItem

/-! ## Words of items -/

theorem Connect.masterWord?_of_number {shim : Bool} {c : Connect} {slave master : Nat}
    (hs : c.source.number .slave shim = .ok slave) (hm : c.dest.number .master shim = .ok master) :
    (RoutingItem.connect c).masterWord? shim master =
      some (StreamWord.circuitMaster (.ofNat slave)) := by
  have hlt : slave < 128 :=
    Nat.lt_of_lt_of_le (Port.number_lt hs) (Nat.le_trans (Port.limit_le _) (by decide))
  rw [RoutingItem.masterWord?, Port.mapped?_of_number_ok hs, Port.mapped?_of_number_ok hm,
    StreamWord.circuitMaster_ofNat slave hlt]
  exact if_pos rfl

theorem MasterSet.masterWord?_of_select {shim : Bool} {s : Switchbox} {m : MasterSet} {master : Nat}
    {mask : Word} {arbiter : UInt8} (hm : m.dest.number .master shim = .ok master)
    (hsel : s.select m.amsels 0 none = .selected mask (some arbiter)) :
    (RoutingItem.masterSet s m).masterWord? shim master =
      some (StreamWord.packetMaster mask (.ofByte arbiter) (m.dest.bundle == .dma)) := by
  obtain ⟨amsels, hams, hmask, harb⟩ := Switchbox.select_eq_selected hsel
  rw [RoutingItem.masterWord?, if_pos (Port.mapped?_of_number_ok hm), Switchbox.masterSetWord?,
    hams, StreamWord.packetMaster_eq]
  cases hl : amsels.getLast? with
  | none =>
    rw [hl] at harb
    cases harb
  | some last =>
    rw [hl] at harb
    cases harb
    simp [hl, hmask]

theorem PacketTable.slotWord?_of_rule {shim : Bool} {s : Switchbox} {p : PacketTable}
    {slave k : Nat} {r : PacketRule} {a : Amsel} (hs : p.source.number .slave shim = .ok slave)
    (hr : p.rules[k]? = some r) (ha : s.amsel? r.amsel = some a) :
    (RoutingItem.packetTable s p).slotWord? shim slave k =
      some (StreamWord.packetSlot r.value r.mask a.msel a.arbiter) := by
  rw [RoutingItem.slotWord?, if_pos (Port.mapped?_of_number_ok hs), hr, Option.bind_some,
    Switchbox.ruleWord?, ha, StreamWord.packetSlot_eq]
  rfl

namespace Device

variable {d : Device} {source : ProgramSource} {dir : String} {addresses : AddressSource}

/-- The three phases, one after the other. -/
theorem applyTo_script (hs : (d.script source dir addresses).Completes) :
    (d.script source dir addresses).applyTo .empty = (d.dmaSteps addresses).applyTo
      (d.streamSteps.applyTo ((d.tileSteps source dir).applyTo .empty)) := by
  rw [script_eq, ← streamSteps_eq] at hs ⊢
  rw [Script.applyTo_append hs, Script.applyTo_append (Script.completes_append.mp hs).1]

/-- A register of a switch is left to the items of its tile. -/
theorem get?_script_switch (hs : (d.script source dir addresses).Completes) (t : TileId) {o : Nat}
    (hb : masterBase ≤ o) (ho : o < windowSize) {g : RoutingItem → Option Word}
    (hg : ∀ x, Script.Completes (x.steps t) → Script.lastWord? (x.steps t) (t.address o) = g x) :
    ((d.script source dir addresses).applyTo .empty).get? (t.address o) =
      ((d.routingItems t).filterMap g).getLast?.or
        (((d.tileSteps source dir).applyTo .empty).get? (t.address o)) := by
  obtain ⟨-, hstreams, hdma⟩ := completes_phases hs
  rw [applyTo_script hs, Script.get?_applyTo_of_not_written hdma,
    get?_streamSteps hstreams _ t hb ho hg]
  intro w hw he
  have hoff := ((TileId.address_inj w.register.offset_lt ho).mp he).2
  simp only [masterBase] at hb
  rcases (writes_dmaSteps hw).2 with h | h
  · have := h.1.bounds
    omega
  · have := h.1.bounds
    omega

theorem get?_script_of_items (hs : (d.script source dir addresses).Completes) (t : TileId) {o : Nat}
    (hb : masterBase ≤ o) (ho : o < windowSize) {g : RoutingItem → Option Word}
    (hg : ∀ x, Script.Completes (x.steps t) → Script.lastWord? (x.steps t) (t.address o) = g x)
    {before after : List RoutingItem} {x : RoutingItem}
    (hx : d.routingItems t = before ++ x :: after) (hafter : ∀ y ∈ after, g y = none) {v : Word}
    (hv : g x = some v) :
    ((d.script source dir addresses).applyTo .empty).get? (t.address o) = some v := by
  rw [get?_script_switch hs t hb ho hg, hx, getLast?_filterMap_append_cons hafter, hv]
  rfl

/-! ## Designs -/

/-- Every item of a design is in its registers. -/
structure KeepsAll (d : Device) (addresses : AddressSource) (log : WriteLog) : Prop where
  circuit : ∀ t c, .connect c ∈ d.routingItems t → c.HeldIn t log
  masterSet : ∀ t s m, .masterSet s m ∈ d.routingItems t → m.HeldIn t log s
  rule : ∀ t s p, .packetTable s p ∈ d.routingItems t → ∀ k r, p.rules[k]? = some r →
    p.HoldsRule t log s k r
  block : ∀ t, ∀ m ∈ d.memoriesOn t, ∀ i b, m.transferring[i]? = some b →
    m.HoldsBlock d addresses t i b log
  start : ∀ t, ∀ m ∈ d.memoriesOn t, ∀ s ∈ m.starts, ∀ i, m.indexOf? addresses s.block = some i →
    s.HeldIn t log i

/-- Every item of a design is on a tile, and is in its registers unless a later item of the tile
takes them. -/
structure KeepsLast (d : Device) (addresses : AddressSource) (log : WriteLog) : Prop where
  switchbox_placed : ∀ s ∈ d.switchboxes, ∃ t, d.locate s.column s.row = .ok t ∧
    ∀ x ∈ s.items, x ∈ d.routingItems t
  memory_placed : ∀ m ∈ d.memories, ∃ t, d.locate m.column m.row = .ok t ∧ m ∈ d.memoriesOn t
  circuit : ∀ t before c after, d.routingItems t = before ++ .connect c :: after →
    c.HeldIn t log ∨ ∃ x ∈ after, x.Drives c.dest
  masterSet : ∀ t before s m after, d.routingItems t = before ++ .masterSet s m :: after →
    m.HeldIn t log s ∨ ∃ x ∈ after, x.Drives m.dest
  rule : ∀ t before s p after, d.routingItems t = before ++ .packetTable s p :: after →
    ∀ k r, p.rules[k]? = some r → p.HoldsRule t log s k r ∨ ∃ x ∈ after, x.Matches p.source k
  block : ∀ t before m after, d.memoriesOn t = before ++ m :: after →
    ∀ i b, m.transferring[i]? = some b →
      m.HoldsBlock d addresses t i b log ∨ ∃ m' ∈ after, i < m'.transferring.length
  start : ∀ t before m after, d.memoriesOn t = before ++ m :: after →
    ∀ earlier s later, m.starts = earlier ++ s :: later →
    ∀ i, m.indexOf? addresses s.block = some i → s.HeldIn t log i ∨ after ≠ [] ∨
      ∃ s' ∈ later, s'.direction = s.direction ∧ s'.channel = s.channel ∧
        (m.indexOf? addresses s'.block).isSome

theorem mem_of_eq_append {α : Type} {l before after : List α} {x : α}
    (h : l = before ++ x :: after) : x ∈ l := by
  rw [h]
  exact List.mem_append_cons_self

theorem keeps_circuit (h : (d.script source dir addresses).Clean) {t : TileId}
    {before after : List RoutingItem} {c : Connect}
    (hx : d.routingItems t = before ++ .connect c :: after)
    (hafter : ∀ x ∈ after, ¬ x.Drives c.dest) :
    c.HeldIn t ((d.script source dir addresses).applyTo .empty) := by
  obtain ⟨slave, master, hs, hm⟩ := Connect.of_clean (clean_item h (mem_of_eq_append hx))
  have hmap := Port.mapped?_of_number_ok hm
  have hlt := RoutingItem.port_lt hmap
  refine ⟨slave, master, hs, hm, ?_⟩
  exact get?_script_of_items h.completes t (masterBase_le_masterOffset _) (masterOffset_lt hlt)
    (fun x hc => RoutingItem.lastWord?_master hc hlt) hx
    (fun y hy => RoutingItem.masterWord?_eq_none hmap (hafter y hy))
    (Connect.masterWord?_of_number hs hm)

theorem keeps_masterSet (h : (d.script source dir addresses).Clean) {t : TileId}
    {before after : List RoutingItem} {s : Switchbox} {m : MasterSet}
    (hx : d.routingItems t = before ++ .masterSet s m :: after)
    (hafter : ∀ x ∈ after, ¬ x.Drives m.dest) :
    m.HeldIn t ((d.script source dir addresses).applyTo .empty) s := by
  obtain ⟨master, mask, arbiter, hm, hsel⟩ :=
    MasterSet.of_clean (clean_item h (mem_of_eq_append hx))
  have hmap := Port.mapped?_of_number_ok hm
  have hlt := RoutingItem.port_lt hmap
  refine ⟨master, mask, arbiter, hm, hsel, ?_⟩
  exact get?_script_of_items h.completes t (masterBase_le_masterOffset _) (masterOffset_lt hlt)
    (fun x hc => RoutingItem.lastWord?_master hc hlt) hx
    (fun y hy => RoutingItem.masterWord?_eq_none hmap (hafter y hy))
    (MasterSet.masterWord?_of_select hm hsel)

theorem keeps_rule (h : (d.script source dir addresses).Clean) {t : TileId}
    {before after : List RoutingItem} {s : Switchbox} {p : PacketTable}
    (hx : d.routingItems t = before ++ .packetTable s p :: after) {k : Nat} {r : PacketRule}
    (hr : p.rules[k]? = some r) (hafter : ∀ x ∈ after, ¬ x.Matches p.source k) :
    p.HoldsRule t ((d.script source dir addresses).applyTo .empty) s k r := by
  obtain ⟨slave, hs, hlen, hknown⟩ := PacketTable.of_clean (clean_item h (mem_of_eq_append hx))
  obtain ⟨a, ha⟩ := hknown r (List.mem_of_getElem? hr)
  have hk : k < slotsPerPort :=
    Nat.lt_of_lt_of_le (List.getElem?_eq_some_iff.mp hr).1 hlen
  have hmap := Port.mapped?_of_number_ok hs
  have hlt : slave < 224 := Nat.lt_of_lt_of_le (RoutingItem.port_lt hmap) (by decide)
  refine ⟨slave, a, hs, ha, hk, ?_⟩
  exact get?_script_of_items h.completes t (masterBase_le_slotOffset _ _) (slotOffset_lt hlt hk)
    (fun x hc => RoutingItem.lastWord?_slot hc hlt hk) hx
    (fun y hy => RoutingItem.slotWord?_eq_none hmap (hafter y hy))
    (PacketTable.slotWord?_of_rule hs hr ha)

theorem keeps_block (hv : d.Valid) (h : (d.script source dir addresses).Clean) {t : TileId}
    {before after : List MemoryDma} {m : MemoryDma} (hm : d.memoriesOn t = before ++ m :: after)
    {i : Nat} {b : DmaBlock} (hb : m.transferring[i]? = some b)
    (hafter : ∀ m' ∈ after, m'.transferring.length ≤ i) :
    m.HoldsBlock d addresses t i b ((d.script source dir addresses).applyTo .empty) := by
  have hmem := mem_of_eq_append hm
  have hclean := clean_program h hmem
  obtain ⟨-, -, hdma⟩ := completes_phases h.completes
  have hmv := (isShim_of_mem_memoriesOn hv hmem).1
  rw [← MemoryDma.resolved_of_clean hclean] at hb
  have hi : i < descriptorCount := Nat.lt_of_lt_of_le (List.getElem?_eq_some_iff.mp hb).1
    (MemoryDma.resolved_length_le hmv)
  obtain ⟨x, hx⟩ := MemoryDma.exists_describe (MemoryDma.isShim_of_clean hclean) hclean.completes
    (List.mem_of_getElem? hb)
  refine MemoryDma.holdsBlock_of_words hmv hx fun p hp => ?_
  obtain ⟨k, hk, hpk⟩ := Descriptor.offset_of_mem_words hp
  rw [applyTo_script h.completes, get?_descriptor hv hdma _ t hi (by omega), hm,
    getLast?_filterMap_append_cons, MemoryDma.descriptorWord?_eq hb hx hp]
  · rfl
  · intro m' hm'
    have hmem' : m' ∈ d.memoriesOn t := by
      rw [hm]
      exact List.mem_append_right _ (List.mem_cons_of_mem _ hm')
    have hle := hafter m' hm'
    rw [← MemoryDma.resolved_of_clean (clean_program h hmem')] at hle
    rw [MemoryDma.descriptorWord?, List.getElem?_eq_none hle]
    rfl

theorem keeps_start (hv : d.Valid) (h : (d.script source dir addresses).Clean) {t : TileId}
    {before : List MemoryDma} {m : MemoryDma} (hm : d.memoriesOn t = before ++ [m])
    {earlier later : List ChannelStart} {s : ChannelStart}
    (hs : m.starts = earlier ++ s :: later) {i : Nat}
    (hi : m.indexOf? addresses s.block = some i)
    (hlater : ∀ s' ∈ later, s'.direction = s.direction → s'.channel = s.channel →
      m.indexOf? addresses s'.block = none) :
    s.HeldIn t ((d.script source dir addresses).applyTo .empty) i := by
  obtain ⟨-, -, hdma⟩ := completes_phases h.completes
  have hmv := (isShim_of_mem_memoriesOn hv (mem_of_eq_append hm)).1
  have hlast : (d.memoriesOn t).getLast? = some m := by
    rw [hm, List.getLast?_append]
    rfl
  have hstart : m.startedOn? addresses s.direction s.channel.toNat = some i := by
    rw [MemoryDma.startedOn?, hs, getLast?_filterMap_append_cons]
    · rw [ChannelStart.target?, if_pos ⟨rfl, rfl⟩, hi]
      rfl
    · intro s' hs'
      rw [ChannelStart.target?]
      by_cases he : s'.direction = s.direction ∧ s'.channel.toNat = s.channel.toNat
      · rw [if_pos he, hlater s' hs' he.1 (UInt8.toNat_inj.mp he.2)]
      · exact if_neg he
  obtain ⟨hcontrol, hqueue⟩ := get?_channel hv hdma
    (d.streamSteps.applyTo ((d.tileSteps source dir).applyTo .empty)) hlast s.direction
    (ChannelStart.channel_lt hmv (mem_of_eq_append hs))
  rw [hstart] at hcontrol hqueue
  rw [ChannelStart.HeldIn, applyTo_script h.completes]
  exact ⟨hqueue, hcontrol⟩

/-- A clean run of a valid design keeps the last item for every register. -/
theorem compile_keepsLast {r : Report} (hv : d.issues = [])
    (hc : d.compile source dir addresses = .ok r) (hr : r.isClean = true) :
    ∃ log, d.configure source dir addresses = .ok (log, []) ∧ d.KeepsLast addresses log := by
  obtain ⟨h, hconf⟩ := clean_of_compile hc hr
  have hvalid := valid_of_issues hv
  obtain ⟨htiles, -, -⟩ := completes_phases h.completes
  refine ⟨_, hconf, ?_⟩
  constructor
  case switchbox_placed =>
    intro s hs
    exact exists_items hvalid htiles hs
  case memory_placed =>
    intro m hm
    exact exists_memory hvalid htiles hm
  case circuit =>
    intro t before c after hx
    by_cases hlater : ∃ x ∈ after, x.Drives c.dest
    · exact .inr hlater
    · exact .inl (keeps_circuit h hx fun x hm hd => hlater ⟨x, hm, hd⟩)
  case masterSet =>
    intro t before s m after hx
    by_cases hlater : ∃ x ∈ after, x.Drives m.dest
    · exact .inr hlater
    · exact .inl (keeps_masterSet h hx fun x hm hd => hlater ⟨x, hm, hd⟩)
  case rule =>
    intro t before s p after hx k r hr
    by_cases hlater : ∃ x ∈ after, x.Matches p.source k
    · exact .inr hlater
    · exact .inl (keeps_rule h hx hr fun x hm hd => hlater ⟨x, hm, hd⟩)
  case block =>
    intro t before m after hm i b hb
    by_cases hlater : ∃ m' ∈ after, i < m'.transferring.length
    · exact .inr hlater
    · exact .inl (keeps_block hvalid h hm hb fun m' hm' =>
        Nat.le_of_not_lt fun hlt => hlater ⟨m', hm', hlt⟩)
  case start =>
    intro t before m after hm earlier s later hs i hi
    by_cases hafter : after = []
    · by_cases hlater : ∃ s' ∈ later, s'.direction = s.direction ∧ s'.channel = s.channel ∧
          (m.indexOf? addresses s'.block).isSome
      · exact .inr (.inr hlater)
      · subst hafter
        refine .inl (keeps_start hvalid h hm hs hi fun s' hs' hd hch => ?_)
        exact Option.not_isSome_iff_eq_none.mp fun hsome => hlater ⟨s', hs', hd, hch, hsome⟩
    · exact .inr (.inl hafter)

def fillAndDrain : MemoryDma where
  column := 3
  row := 1
  blocks :=
    [⟨"fill", [⟨"in", .a, 0, 16⟩], [], none, some "drain"⟩,
      ⟨"drain", [⟨"out", .a, 0, 16⟩], [], none, none⟩]
  starts := [⟨.s2mm, 0, "fill"⟩, ⟨.s2mm, 0, "drain"⟩]

def crossing : Switchbox where
  column := 3
  row := 1
  connects := [⟨⟨.south, 0⟩, ⟨.dma, 0⟩⟩, ⟨⟨.south, 1⟩, ⟨.dma, 0⟩⟩, ⟨⟨.south, 3⟩, ⟨.east, 1⟩⟩]
  amsels := [⟨"first", 1, 0⟩, ⟨"second", 2, 3⟩]
  masterSets := [⟨⟨.north, 0⟩, ["first"]⟩, ⟨⟨.north, 0⟩, ["second"]⟩, ⟨⟨.east, 1⟩, ["first"]⟩]
  packetTables :=
    [⟨⟨.south, 2⟩, [⟨31, 4, "first"⟩, ⟨31, 5, "second"⟩]⟩, ⟨⟨.south, 2⟩, [⟨31, 6, "first"⟩]⟩]

/-- Two items for each kind of register, the first of which is lost, and a second program with fewer
blocks, so that one block of the first one is kept. -/
def contested : Device where
  schemaVersion := "1.0"
  name := "contested"
  arrayOffset := 1
  tiles := [⟨3, 1, none, none⟩]
  buffers := [⟨"in", 3, 1, some 0x1000, 32⟩, ⟨"out", 3, 1, some 0x2000, 32⟩]
  locks := []
  memories :=
    [fillAndDrain,
      ⟨3, 1, [⟨"again", [⟨"out", .a, 0, 8⟩], [], none, none⟩], [⟨.mm2s, 1, "again"⟩]⟩]
  switchboxes := [crossing]
  shimMuxes := []

theorem contested_keepsLast : ∃ r, contested.issues = [] ∧
    contested.compile noPrograms "." contested.addressOf? = .ok r ∧ r.isClean = true ∧
    ∃ log, contested.configure noPrograms "." contested.addressOf? = .ok (log, []) ∧
      contested.KeepsLast contested.addressOf? log := by
  have hv : contested.issues = [] := by decide +kernel
  have hcore : ∀ x ∈ contested.tiles, x.core = none := by simp [contested]
  have hdma : (contested.dmaSteps contested.addressOf?).Clean := by decide +kernel
  obtain ⟨r, hc, hr⟩ := exists_clean_report (valid_of_issues hv) (by decide) hcore
    (by decide +kernel) hdma
  exact ⟨r, hv, hc, hr, compile_keepsLast hv hc hr⟩

def filling : MemoryDma where
  column := 3
  row := 1
  blocks := [⟨"fill", [⟨"in", .a, 0, 16⟩], [], none, none⟩]
  starts := [⟨.s2mm, 0, "fill"⟩]

def resetTwice : Device where
  schemaVersion := "1.0"
  name := "reset"
  arrayOffset := 0
  tiles := [⟨3, 1, none, none⟩]
  buffers := [⟨"in", 3, 1, some 0x1000, 32⟩]
  locks := []
  memories := [filling, ⟨3, 1, [], []⟩]
  switchboxes := []
  shimMuxes := []

/-- A register of a channel belongs to the last program of its tile. -/
theorem control_script (hv : d.Valid) (hs : (d.script source dir addresses).Completes) {t : TileId}
    {m : MemoryDma} (hm : (d.memoriesOn t).getLast? = some m) (direction : ChannelDirection)
    {channel : Nat} (hch : channel < channelCount) :
    ((d.script source dir addresses).applyTo .empty).get?
        (t.address (direction.controlOffset channel)) =
      some (if (m.startedOn? addresses direction channel).isSome then 1 else 0) := by
  rw [applyTo_script hs]
  exact (get?_channel hv (completes_phases hs).2.2 _ hm direction hch).1

def contestedTile : TileId :=
  contested.sampleTile (Nat.le_of_ble_eq_true rfl)

/-- The registers for which items of `contested` compete, each with the word of the second one. -/
theorem get?_contested (hs : (contested.script source dir contested.addressOf?).Completes) :
    let log := (contested.script source dir contested.addressOf?).applyTo .empty
    log.get? (contestedTile.address (masterOffset 2)) = some 0x80000008 ∧
      log.get? (contestedTile.address (masterOffset 15)) = some 0xC0000042 ∧
      log.get? (contestedTile.address (slotOffset 9 0)) = some 0x061F0101 ∧
      log.get? (contestedTile.address (descriptorOffset 0 + 0)) = some 0x800 ∧
      log.get? (contestedTile.address (ChannelDirection.s2mm.controlOffset 0)) = some 0 := by
  have hv : contested.Valid := valid_of_issues (by decide +kernel)
  refine ⟨?_, ?_, ?_, ?_, ?_⟩
  · rw [get?_script_switch hs _ (masterBase_le_masterOffset _) (masterOffset_lt (by decide))
      fun x hx => RoutingItem.lastWord?_master hx (by decide)]
    rfl
  · rw [get?_script_switch hs _ (masterBase_le_masterOffset _) (masterOffset_lt (by decide))
      fun x hx => RoutingItem.lastWord?_master hx (by decide)]
    rfl
  · rw [get?_script_switch hs _ (masterBase_le_slotOffset _ _)
      (slotOffset_lt (by decide) (by decide)) fun x hx =>
        RoutingItem.lastWord?_slot hx (by decide) (by decide)]
    rfl
  · rw [applyTo_script hs, get?_descriptor hv (completes_phases hs).2.2 _ _ (by decide) (by decide)]
    rfl
  · exact control_script hv hs (t := contestedTile) rfl .s2mm (show 0 < 2 by decide)

/-- A program turns the channels of the one before it off, and of two items of a kind that want the
same registers the first is lost, all without a report. -/
theorem clean_not_keepsAll :
    (∃ log, resetTwice.RunsClean noPrograms "." resetTwice.addressOf? log ∧
      ¬ resetTwice.KeepsAll resetTwice.addressOf? log) ∧
    ∃ log, contested.RunsClean noPrograms "." contested.addressOf? log ∧
      (∃ t c, .connect c ∈ contested.routingItems t ∧ ¬ c.HeldIn t log) ∧
      (∃ t s m, .masterSet s m ∈ contested.routingItems t ∧ ¬ m.HeldIn t log s) ∧
      (∃ t s p k r, .packetTable s p ∈ contested.routingItems t ∧ p.rules[k]? = some r ∧
        ¬ p.HoldsRule t log s k r) ∧
      (∃ t m i b, m ∈ contested.memoriesOn t ∧ m.transferring[i]? = some b ∧
        ¬ m.HoldsBlock contested contested.addressOf? t i b log) ∧
      ∃ t m s i, m ∈ contested.memoriesOn t ∧ s ∈ m.starts ∧
        m.indexOf? contested.addressOf? s.block = some i ∧ ¬ s.HeldIn t log i := by
  constructor
  · have hv : resetTwice.issues = [] := by decide +kernel
    have hdma : (resetTwice.dmaSteps resetTwice.addressOf?).Clean := by decide +kernel
    obtain ⟨hs, hrun⟩ : _ ∧ resetTwice.RunsClean noPrograms "." _ _ :=
      runsClean hv (by decide) (by simp [resetTwice]) (by decide +kernel) hdma
    refine ⟨_, hrun, fun hkeeps => ?_⟩
    let t : TileId := ⟨0, 3, 1, by decide, by decide, by decide⟩
    have hmem : resetTwice.memoriesOn t = resetTwice.memories := rfl
    have hon := (hkeeps.start t filling (hmem ▸ List.mem_cons_self) ⟨.s2mm, 0, "fill"⟩
      List.mem_cons_self 0 (by decide +kernel)).2
    have hoff := control_script (valid_of_issues hv) hs (t := t) rfl .s2mm (show 0 < 2 by decide)
    cases hon.symm.trans hoff
  · have hdma : (contested.dmaSteps contested.addressOf?).Clean := by decide +kernel
    obtain ⟨hs, hrun⟩ : _ ∧ contested.RunsClean noPrograms "." _ _ :=
      runsClean (by decide +kernel) (by decide) (by simp [contested]) (by decide +kernel) hdma
    have hitems : contested.routingItems contestedTile = crossing.items := rfl
    have hmem : contested.memoriesOn contestedTile = contested.memories := rfl
    obtain ⟨hmaster, hset, hslot, hblock, hcontrol⟩ := get?_contested hs
    refine ⟨_, hrun, ?_, ?_, ?_, ?_, ?_⟩
    · refine ⟨contestedTile, ⟨⟨.south, 0⟩, ⟨.dma, 0⟩⟩, hitems ▸ List.mem_cons_self, ?_⟩
      rintro ⟨slave, master, hn, hm, hget⟩
      cases hn
      cases hm
      exact absurd (hmaster.symm.trans hget) (by decide +kernel)
    · refine ⟨contestedTile, crossing, ⟨⟨.north, 0⟩, ["first"]⟩, ?_, ?_⟩
      · rw [hitems]
        simp [Switchbox.items, crossing]
      rintro ⟨master, mask, arbiter, hm, hsel, hget⟩
      cases hm
      cases hsel
      exact absurd (hset.symm.trans hget) (by decide +kernel)
    · refine ⟨contestedTile, crossing, ⟨⟨.south, 2⟩, [⟨31, 4, "first"⟩, ⟨31, 5, "second"⟩]⟩, 0,
        ⟨31, 4, "first"⟩, ?_, rfl, ?_⟩
      · rw [hitems]
        simp [Switchbox.items, crossing]
      rintro ⟨slave, a, hn, ha, -, hget⟩
      cases hn
      cases ha
      exact absurd (hslot.symm.trans hget) (by decide +kernel)
    · refine ⟨contestedTile, fillAndDrain, 0, ⟨"fill", [⟨"in", .a, 0, 16⟩], [], none, some "drain"⟩,
        hmem ▸ List.mem_cons_self, rfl, fun hholds => ?_⟩
      obtain ⟨x, hx, hwords⟩ := hholds.words
      cases hx
      have hword := hwords (0x00, _) List.mem_cons_self
      exact absurd (hblock.symm.trans hword) (by decide +kernel)
    · refine ⟨contestedTile, fillAndDrain, ⟨.s2mm, 0, "fill"⟩, 0, hmem ▸ List.mem_cons_self,
        List.mem_cons_self, by decide +kernel, fun hheld => ?_⟩
      cases hheld.2.symm.trans hcontrol

end Device
end ArrayImage
