import ArrayImage.Proofs.Lists
import ArrayImage.Proofs.Ports
import ArrayImage.Proofs.StreamWord

/-!
# ArrayImage.Proofs.Switching

Which item of a design each register of a stream switch belongs to.

Connects, master sets and packet tables share the registers of a switch. `RoutingItem` lists them
in the order of the run, and `masterWord?`, `slaveWord?` and `slotWord?` say which word an item
has for a register, from its ports and amsels alone. `Device.Routed` is the main statement: after
the phase every register holds the word of the last item that has one for it, and nothing but
these and the mux registers is touched.
-/

namespace ArrayImage

open RegisterMap

/-! ## Selections -/

namespace Switchbox

def selectMask (amsels : List Amsel) : Word :=
  amsels.foldr (fun a mask => (1 <<< a.msel.toNat) ||| mask) 0

theorem select_eq_selected {s : Switchbox} {names : List String} {mask mask' : Word}
    {arbiter arbiter' : Option UInt8} (h : s.select names mask arbiter = .selected mask' arbiter') :
    ∃ amsels, names.mapM s.amsel? = some amsels ∧ mask' = mask ||| selectMask amsels ∧
      arbiter' = (amsels.getLast?.map Amsel.arbiter).or arbiter := by
  induction names generalizing mask arbiter with
  | nil =>
    cases h
    exact ⟨[], rfl, by simp [selectMask], rfl⟩
  | cons name names ih =>
    unfold select at h
    cases ha : s.amsel? name with
    | none => simp [ha] at h
    | some amsel =>
      simp only [ha] at h
      split at h
      · obtain ⟨amsels, hm, rfl, rfl⟩ := ih h
        refine ⟨amsel :: amsels, by simp [List.mapM_cons, ha, hm], ?_, ?_⟩
        · rw [selectMask, selectMask, List.foldr_cons, BitVec.or_assoc]
        · rw [List.getLast?_cons]
          cases amsels.getLast? <;> rfl
      · cases h

theorem select_eq_unknown {s : Switchbox} {names : List String} {mask : Word}
    {arbiter : Option UInt8} {name : String} (h : s.select names mask arbiter = .unknown name) :
    names.mapM s.amsel? = none := by
  induction names generalizing mask arbiter with
  | nil => cases h
  | cons x names ih =>
    unfold select at h
    rw [List.mapM_cons]
    cases ha : s.amsel? x with
    | none => rfl
    | some amsel =>
      simp only [ha] at h
      split at h
      · rw [ih h]
        rfl
      · cases h

/-- The word of a master set, when it names amsels and all of them are known: the selects of all
its amsels, and the arbiter of the last one. -/
def masterSetWord? (s : Switchbox) (m : MasterSet) : Option Word :=
  match m.amsels.mapM s.amsel? with
  | none => none
  | some amsels => amsels.getLast?.map fun last =>
      (0xC0000000 : Word) ||| (if m.dest.bundle = .dma then (0x80 : Word) else 0) |||
        (selectMask amsels <<< 3 ||| Word.ofByte last.arbiter) % 128

def ruleWord? (s : Switchbox) (r : PacketRule) : Option Word :=
  (s.amsel? r.amsel).map fun a =>
    (Word.ofByte r.value % 32) <<< 24 ||| (Word.ofByte r.mask % 32) <<< 16 ||| (0x100 : Word) |||
      (Word.ofByte a.msel % 4) <<< 4 ||| Word.ofByte a.arbiter % 8

/-- A packet table has a rule with a known amsel among the rules that have slots. -/
def hasKnownRule (s : Switchbox) (p : PacketTable) : Bool :=
  (p.rules.take slotsPerPort).any fun r => (s.amsel? r.amsel).isSome

end Switchbox

/-! ## Items -/

/-- What a switchbox asks of its switch, one thing at a time. Packet routes look their amsels up
in their switchbox. -/
inductive RoutingItem where
  | connect (c : Connect)
  | masterSet (s : Switchbox) (m : MasterSet)
  | packetTable (s : Switchbox) (p : PacketTable)

namespace RoutingItem

def steps (t : TileId) : RoutingItem → Script
  | connect c => c.steps t
  | masterSet s m => m.steps t s
  | packetTable s p => p.steps t s

def masterWord? (shim : Bool) (port : Nat) : RoutingItem → Option Word
  | connect c =>
    match c.source.mapped? .slave shim, c.dest.mapped? .master shim with
    | some slave, some master =>
      if master = port then some (0x80000000 ||| .ofNat slave) else none
    | _, _ => none
  | masterSet s m =>
    if m.dest.mapped? .master shim = some port then s.masterSetWord? m else none
  | packetTable _ _ => none

def slaveWord? (shim : Bool) (port : Nat) : RoutingItem → Option Word
  | connect c =>
    if c.source.mapped? .slave shim = some port ∧ (c.dest.mapped? .master shim).isSome then
      some 0x80000000
    else none
  | masterSet _ _ => none
  | packetTable s p =>
    if p.source.mapped? .slave shim = some port ∧ s.hasKnownRule p then some 0xC0000000 else none

def slotWord? (shim : Bool) (port slot : Nat) : RoutingItem → Option Word
  | connect _ | masterSet _ _ => none
  | packetTable s p =>
    if p.source.mapped? .slave shim = some port then p.rules[slot]?.bind s.ruleWord? else none

end RoutingItem

def Switchbox.items (s : Switchbox) : List RoutingItem :=
  s.connects.map .connect ++ s.masterSets.map (.masterSet s) ++
    s.packetTables.map (.packetTable s)

theorem Switchbox.steps_eq_flatMap (t : TileId) (s : Switchbox) :
    s.steps t = s.items.flatMap (RoutingItem.steps t) := by
  rw [steps, items, List.flatMap_append, List.flatMap_append, List.flatMap_map, List.flatMap_map,
    List.flatMap_map]
  rfl

theorem Switchbox.items_of_isEmpty {s : Switchbox} (h : s.isEmpty = true) : s.items = [] := by
  simp only [isEmpty, Bool.and_eq_true, List.isEmpty_iff] at h
  simp [items, h]

def Device.routingItems (d : Device) (t : TileId) : List RoutingItem :=
  (d.switchboxes.filter fun s =>
    t.isAt d.arrayOffset.toNat s.column.toNat s.row.toNat).flatMap Switchbox.items

/-! ## What an item leaves at a place of its tile -/

theorem Connect.lastWord?_steps {t : TileId} {c : Connect} {p : Nat}
    (hs : Script.Completes (c.steps t)) (hp : p < windowSize) :
    Script.lastWord? (c.steps t) (t.address p) =
      match c.source.mapped? .slave t.isShim, c.dest.mapped? .master t.isShim with
      | some slave, some master =>
        if slaveOffset slave = p then some 0x80000000
        else if masterOffset master = p then some (0x80000000 ||| .ofNat slave) else none
      | _, _ => none := by
  cases hn : c.source.number .slave t.isShim with
  | error e =>
    rw [Port.mapped?_of_number_error hn, steps, hn]
    rfl
  | ok slave =>
    rw [Port.mapped?_of_number_ok hn]
    cases hm : c.dest.number .master t.isShim with
    | error e =>
      rw [Port.mapped?_of_number_error hm, steps, hn]
      simp only [hm]
      rfl
    | ok master =>
      have hlt : slave < 128 := Nat.lt_of_lt_of_le (Port.number_lt hn)
        (Nat.le_trans (Port.limit_le _) (by decide))
      rw [Port.mapped?_of_number_ok hm]
      rw [steps, hn] at hs ⊢
      simp only [hm, Script.completes_cons, Script.completes_nil, and_true] at hs ⊢
      rw [Script.lastWord?_cons, Script.lastWord?_cons, Script.lastWord?_nil, Option.none_or,
        Step.wordAt?_put_address hs.1 hp, Step.wordAt?_put_address hs.2 hp,
        StreamWord.circuitMaster_ofNat slave hlt, StreamWord.circuitSlave_eq]
      split <;> rfl

theorem MasterSet.lastWord?_steps {t : TileId} {s : Switchbox} {m : MasterSet} {p : Nat}
    (hs : Script.Completes (m.steps t s)) (hp : p < windowSize) :
    Script.lastWord? (m.steps t s) (t.address p) =
      match m.dest.mapped? .master t.isShim with
      | some master => if masterOffset master = p then s.masterSetWord? m else none
      | none => none := by
  cases hn : m.dest.number .master t.isShim with
  | error e =>
    rw [Port.mapped?_of_number_error hn, steps, hn]
    rfl
  | ok master =>
    rw [Port.mapped?_of_number_ok hn]
    rw [steps, hn] at hs ⊢
    cases hsel : s.select m.amsels 0 none with
    | unknown name =>
      simp [Switchbox.masterSetWord?, Switchbox.select_eq_unknown hsel]
    | fault f =>
      simp only [hsel] at hs
      exact absurd hs (Script.not_completes_fault f)
    | selected mask arbiter =>
      obtain ⟨amsels, hm, hmask, harb⟩ := Switchbox.select_eq_selected hsel
      cases hl : amsels.getLast? with
      | none =>
        rw [hl] at harb
        subst harb
        simp [Switchbox.masterSetWord?, hm, hl]
      | some last =>
        rw [hl] at harb
        subst harb
        simp only [hsel, Option.map_some, Option.some_or, Script.completes_cons,
          Script.completes_nil, and_true] at hs ⊢
        rw [Script.lastWord?_cons, Script.lastWord?_nil, Option.none_or,
          Step.wordAt?_put_address hs hp, StreamWord.packetMaster_eq, hmask,
          Switchbox.masterSetWord?, hm]
        simp [hl]

theorem PacketRule.lastWord?_steps {t : TileId} {s : Switchbox} {slave k p : Nat} {r : PacketRule}
    (hs : Script.Completes (r.steps t s slave k)) (hp : p < windowSize) :
    Script.lastWord? (r.steps t s slave k) (t.address p) =
      if slotOffset slave k = p then s.ruleWord? r
      else if slaveOffset slave = p ∧ (s.amsel? r.amsel).isSome then some 0xC0000000 else none := by
  unfold steps at hs ⊢
  cases ha : s.amsel? r.amsel with
  | none => simp [Switchbox.ruleWord?, ha]
  | some amsel =>
    simp only [ha, Script.completes_cons, Script.completes_nil, and_true] at hs ⊢
    rw [Script.lastWord?_cons, Script.lastWord?_cons, Script.lastWord?_nil, Option.none_or,
      Step.wordAt?_put_address hs.1 hp, Step.wordAt?_put_address hs.2 hp,
      StreamWord.packetSlot_eq, StreamWord.packetSlave_eq, Switchbox.ruleWord?, ha]
    by_cases hslot : slotOffset slave k = p
    · rw [if_pos hslot, if_pos hslot]
      rfl
    · rw [if_neg hslot, if_neg hslot, Option.none_or]
      simp

/-- The rules of a table, one after the other with their slots. -/
theorem PacketTable.lastWord?_steps {t : TileId} {s : Switchbox} {p : PacketTable} {a slave : Nat}
    (h : p.source.number .slave t.isShim = .ok slave) :
    Script.lastWord? (p.steps t s) a =
      Script.lastWord? ((p.rules.take slotsPerPort).zipIdx.flatMap fun x =>
        x.1.steps t s slave x.2) a := by
  rw [steps, h]
  simp only [List.mapIdx_eq_zipIdx_map, ← List.flatMap_def]
  split <;> simp

theorem PacketTable.completes_rule {t : TileId} {s : Switchbox} {p : PacketTable} {slave : Nat}
    (hs : Script.Completes (p.steps t s)) (h : p.source.number .slave t.isShim = .ok slave) :
    ∀ x ∈ (p.rules.take slotsPerPort).zipIdx, Script.Completes (x.1.steps t s slave x.2) := by
  rw [steps, h] at hs
  simp only [List.mapIdx_eq_zipIdx_map, ← List.flatMap_def] at hs
  exact Script.completes_flatMap.mp (Script.completes_append.mp hs).1

theorem PacketTable.lastWord?_slot {t : TileId} {s : Switchbox} {p : PacketTable} {port k : Nat}
    (hs : Script.Completes (p.steps t s)) (hport : port < 224) (hk : k < slotsPerPort) :
    Script.lastWord? (p.steps t s) (t.address (slotOffset port k)) =
      (RoutingItem.packetTable s p).slotWord? t.isShim port k := by
  rw [RoutingItem.slotWord?]
  cases hn : p.source.number .slave t.isShim with
  | error e =>
    rw [Port.mapped?_of_number_error hn, steps, hn]
    rfl
  | ok slave =>
    have hlt : slave < 25 := Nat.lt_of_lt_of_le (Port.number_lt hn) (Port.limit_le _)
    rw [Port.mapped?_of_number_ok hn, PacketTable.lastWord?_steps hn,
      Script.lastWord?_flatMap (g := fun x => if x.2 = 0 + k then
        (if slave = port then s.ruleWord? x.1 else none) else none)]
    · rw [getLast?_filterMap_zipIdx (fun r => if slave = port then s.ruleWord? r else none),
        List.getElem?_take_of_lt hk]
      by_cases he : slave = port
      · simp [he]
      · simp [he]
    · rintro ⟨r, i⟩ hx
      have hi : i < slotsPerPort := by
        obtain ⟨-, hi, -⟩ := List.mem_zipIdx hx
        rw [List.length_take] at hi
        omega
      rw [PacketRule.lastWord?_steps (completes_rule hs hn _ hx) (slotOffset_lt hport hk)]
      simp only [slotOffset_inj hi hk, Nat.zero_add,
        fun m => slaveOffset_ne_slotOffset (Nat.lt_trans hlt (by decide)) port m, false_and,
        if_false]
      by_cases he : slave = port <;> by_cases hik : i = k <;> simp [he, hik]

theorem PacketTable.lastWord?_slave {t : TileId} {s : Switchbox} {p : PacketTable} {port : Nat}
    (hs : Script.Completes (p.steps t s)) (hport : port < 64) :
    Script.lastWord? (p.steps t s) (t.address (slaveOffset port)) =
      (RoutingItem.packetTable s p).slaveWord? t.isShim port := by
  rw [RoutingItem.slaveWord?]
  cases hn : p.source.number .slave t.isShim with
  | error e =>
    rw [Port.mapped?_of_number_error hn, steps, hn]
    rfl
  | ok slave =>
    rw [Port.mapped?_of_number_ok hn, PacketTable.lastWord?_steps hn,
      Script.lastWord?_flatMap (g := fun x =>
        if slave = port ∧ (s.amsel? x.1.amsel).isSome then some 0xC0000000 else none)]
    · refine getLast?_filterMap_const _ ?_
      rw [Option.some_inj, Switchbox.hasKnownRule, List.any_eq_true]
      constructor
      · rintro ⟨he, r, hr, hk⟩
        obtain ⟨i, hi⟩ := List.mem_iff_getElem?.mp hr
        exact ⟨(r, i), List.mem_zipIdx_iff_getElem?.mpr hi, he, hk⟩
      · rintro ⟨x, hx, he, hk⟩
        exact ⟨he, x.1, List.fst_mem_of_mem_zipIdx hx, hk⟩
    · rintro ⟨r, i⟩ hx
      rw [PacketRule.lastWord?_steps (completes_rule hs hn _ hx) (slaveOffset_lt hport),
        if_neg (slaveOffset_ne_slotOffset hport slave i).symm]
      simp only [slaveOffset_inj]

theorem PacketTable.lastWord?_master {t : TileId} {s : Switchbox} {p : PacketTable} {port : Nat}
    (hs : Script.Completes (p.steps t s)) (hport : port < 64) :
    Script.lastWord? (p.steps t s) (t.address (masterOffset port)) = none := by
  cases hn : p.source.number .slave t.isShim with
  | error e =>
    rw [steps, hn]
    rfl
  | ok slave =>
    rw [PacketTable.lastWord?_steps hn, Script.lastWord?_flatMap (g := fun _ => none)]
    · simp
    · rintro ⟨r, i⟩ hx
      rw [PacketRule.lastWord?_steps (completes_rule hs hn _ hx) (masterOffset_lt hport),
        if_neg (masterOffset_ne_slotOffset hport slave i).symm,
        if_neg fun h => masterOffset_ne_slaveOffset hport slave h.1.symm]

/-! ## All items -/

namespace RoutingItem

theorem port_lt {p : Port} {side : Side} {shim : Bool} {n : Nat}
    (h : p.mapped? side shim = some n) : n < 64 :=
  Nat.lt_of_lt_of_le (Port.mapped?_lt h) (Nat.le_trans (Port.limit_le shim) (by decide))

theorem lastWord?_master {t : TileId} {x : RoutingItem} {m : Nat}
    (hs : Script.Completes (x.steps t)) (hm : m < 64) :
    Script.lastWord? (x.steps t) (t.address (masterOffset m)) = x.masterWord? t.isShim m := by
  cases x with
  | connect c =>
    rw [steps, Connect.lastWord?_steps hs (masterOffset_lt hm), masterWord?]
    cases c.source.mapped? .slave t.isShim with
    | none => rfl
    | some slave =>
      cases c.dest.mapped? .master t.isShim with
      | none => rfl
      | some master =>
        simp only [if_neg (masterOffset_ne_slaveOffset hm slave).symm, masterOffset_inj]
  | masterSet s set =>
    rw [steps, MasterSet.lastWord?_steps hs (masterOffset_lt hm), masterWord?]
    cases set.dest.mapped? .master t.isShim with
    | none => rfl
    | some master => simp only [masterOffset_inj, Option.some_inj]
  | packetTable s p => exact PacketTable.lastWord?_master hs hm

theorem lastWord?_slave {t : TileId} {x : RoutingItem} {m : Nat}
    (hs : Script.Completes (x.steps t)) (hm : m < 64) :
    Script.lastWord? (x.steps t) (t.address (slaveOffset m)) = x.slaveWord? t.isShim m := by
  cases x with
  | connect c =>
    rw [steps, Connect.lastWord?_steps hs (slaveOffset_lt hm), slaveWord?]
    cases c.source.mapped? .slave t.isShim with
    | none => rfl
    | some slave =>
      cases hd : c.dest.mapped? .master t.isShim with
      | none => simp
      | some master =>
        simp only [slaveOffset_inj, Option.some_inj, Option.isSome_some, and_true,
          if_neg (masterOffset_ne_slaveOffset (port_lt hd) m)]
  | masterSet s set =>
    rw [steps, MasterSet.lastWord?_steps hs (slaveOffset_lt hm), slaveWord?]
    cases hd : set.dest.mapped? .master t.isShim with
    | none => rfl
    | some master => exact if_neg (masterOffset_ne_slaveOffset (port_lt hd) m)
  | packetTable s p => exact PacketTable.lastWord?_slave hs hm

theorem lastWord?_slot {t : TileId} {x : RoutingItem} {m k : Nat}
    (hs : Script.Completes (x.steps t)) (hm : m < 224) (hk : k < slotsPerPort) :
    Script.lastWord? (x.steps t) (t.address (slotOffset m k)) = x.slotWord? t.isShim m k := by
  cases x with
  | connect c =>
    rw [steps, Connect.lastWord?_steps hs (slotOffset_lt hm hk), slotWord?]
    cases hc : c.source.mapped? .slave t.isShim with
    | none => rfl
    | some slave =>
      cases hd : c.dest.mapped? .master t.isShim with
      | none => rfl
      | some master =>
        simp only [if_neg (slaveOffset_ne_slotOffset (port_lt hc) m k),
          if_neg (masterOffset_ne_slotOffset (port_lt hd) m k)]
  | masterSet s set =>
    rw [steps, MasterSet.lastWord?_steps hs (slotOffset_lt hm hk), slotWord?]
    cases hd : set.dest.mapped? .master t.isShim with
    | none => rfl
    | some master => exact if_neg (masterOffset_ne_slotOffset (port_lt hd) m k)
  | packetTable s p => exact PacketTable.lastWord?_slot hs hm hk

end RoutingItem

/-! ## The phase -/

namespace Device

variable {d : Device}

theorem switchboxes_filter_flatMap (d : Device) (t : TileId) :
    ((d.switchboxes.filter fun s => !s.isEmpty).filter fun s =>
      t.isAt d.arrayOffset.toNat s.column.toNat s.row.toNat).flatMap (fun s => s.steps t) =
      (d.routingItems t).flatMap (RoutingItem.steps t) := by
  have hempty : ∀ s : Switchbox, (!s.isEmpty) = false →
      s.items.flatMap (RoutingItem.steps t) = [] := fun s hs => by
    rw [Switchbox.items_of_isEmpty (by simpa using hs), List.flatMap_nil]
  rw [routingItems, List.flatMap_assoc, List.filter_filter]
  simp only [Switchbox.steps_eq_flatMap, Bool.and_comm]
  rw [← List.filter_filter, flatMap_filter_of_nil hempty]

theorem completes_items (hs : d.switchSteps.Completes) (t : TileId) :
    ∀ x ∈ d.routingItems t, Script.Completes (x.steps t) := by
  have h := Script.completes_flatMap.mpr (Script.completes_filter_isAt (t := t) hs)
  rw [switchboxes_filter_flatMap] at h
  exact Script.completes_flatMap.mp h

theorem lastWord?_streamSteps (hs : d.streamSteps.Completes) (t : TileId) (o : Nat) :
    d.streamSteps.lastWord? (t.address o) =
      Script.lastWord? ((d.routingItems t).flatMap (RoutingItem.steps t)) (t.address o) := by
  rw [streamSteps_eq] at hs ⊢
  obtain ⟨hsw, -⟩ := Script.completes_append.mp hs
  have hmux : d.muxSteps.lastWord? (t.address o) = none := by
    refine Script.lastWord?_eq_none fun x hx => ?_
    cases x with
    | write w =>
      obtain ⟨-, v, hv⟩ := d.isMux_muxSteps w hx
      rw [Step.wordAt?_write, Write.wordAt?, hv]
      exact ite_self _
    | _ => rfl
  rw [Script.lastWord?_append, hmux, Option.none_or, switchSteps,
    Script.lastWord?_flatMap_onTile t o hsw fun s t => s.isOn_steps t, switchboxes_filter_flatMap]

/-- `after` is `before` with the registers of all stream switches as the items of the design ask:
each register has the word of the last item that has one for it. The mux registers are left open. -/
structure Routed (d : Device) (before after : WriteLog) : Prop where
  master : ∀ (t : TileId), ∀ m < 64,
    after.get? (t.address (masterOffset m)) =
      ((d.routingItems t).filterMap (RoutingItem.masterWord? t.isShim m)).getLast?.or
        (before.get? (t.address (masterOffset m)))
  slave : ∀ (t : TileId), ∀ m < 64,
    after.get? (t.address (slaveOffset m)) =
      ((d.routingItems t).filterMap (RoutingItem.slaveWord? t.isShim m)).getLast?.or
        (before.get? (t.address (slaveOffset m)))
  slot : ∀ (t : TileId), ∀ m < 224, ∀ k < slotsPerPort,
    after.get? (t.address (slotOffset m k)) =
      ((d.routingItems t).filterMap (RoutingItem.slotWord? t.isShim m k)).getLast?.or
        (before.get? (t.address (slotOffset m k)))
  frame : ∀ a, (∀ (t : TileId), ∀ o < windowSize, a = t.address o →
    o ≠ shimMux ∧ o ≠ shimDemux ∧ (o < masterBase ∨ o % 4 ≠ 0)) → after.get? a = before.get? a

theorem put_of_address {t : TileId} {o : Nat} (ho : o < windowSize) (hm : o ≠ shimMux)
    (hd : o ≠ shimDemux) {w : Write} (hw : .write w ∈ d.streamSteps) (ha : w.address = t.address o) :
    w.IsRoute ∧ w.register.offset = o := by
  have hoff := ((TileId.address_inj w.register.offset_lt ho).mp ha).2
  rw [streamSteps_eq, List.mem_append] at hw
  rcases hw with hw | hw
  · exact ⟨d.isRoute_switchSteps w hw, hoff⟩
  · obtain ⟨hx | hx, -⟩ := d.isMux_muxSteps w hw
    · exact absurd (hoff.symm.trans hx) hm
    · exact absurd (hoff.symm.trans hx) hd

theorem get?_streamSteps (hs : d.streamSteps.Completes) (log : WriteLog) (t : TileId) {o : Nat}
    (hb : masterBase ≤ o) (ho : o < windowSize) {g : RoutingItem → Option Word}
    (hg : ∀ x, Script.Completes (x.steps t) → Script.lastWord? (x.steps t) (t.address o) = g x) :
    (d.streamSteps.applyTo log).get? (t.address o) =
      ((d.routingItems t).filterMap g).getLast?.or (log.get? (t.address o)) := by
  have hsw := (Script.completes_append.mp (streamSteps_eq d ▸ hs)).1
  obtain ⟨hm, hd⟩ := ne_mux_of_masterBase_le hb
  rw [Script.get?_applyTo_of_puts hs fun w hw ha => (put_of_address ho hm hd hw ha).1.2,
    lastWord?_streamSteps hs,
    Script.lastWord?_flatMap fun x hx => hg x (completes_items hsw t x hx)]

/-- Every run of the stream phase leaves the registers of the switches as the items ask. -/
theorem streamSteps_routed (hs : d.streamSteps.Completes) (log : WriteLog) :
    d.Routed log (d.streamSteps.applyTo log) where
  master t _ hm :=
    get?_streamSteps hs log t (masterBase_le_masterOffset _) (masterOffset_lt hm) fun _ hx =>
      RoutingItem.lastWord?_master hx hm
  slave t _ hm :=
    get?_streamSteps hs log t (masterBase_le_slaveOffset _) (slaveOffset_lt hm) fun _ hx =>
      RoutingItem.lastWord?_slave hx hm
  slot t _ hm _ hk :=
    get?_streamSteps hs log t (masterBase_le_slotOffset _ _) (slotOffset_lt hm hk) fun _ hx =>
      RoutingItem.lastWord?_slot hx hm hk
  frame a ha := by
    refine Script.get?_applyTo_of_not_written hs fun w hw he => ?_
    have ho := w.register.offset_lt
    obtain ⟨hm, hd, hfree⟩ := ha w.register.tile w.register.offset ho he.symm
    obtain ⟨hr, -⟩ := put_of_address ho hm hd hw rfl
    obtain ⟨hle, -, h4⟩ := hr.1.masterBase_le
    omega

/-- A compute tile on which a circuit, a master set and a packet table meet, with a rule of an
unknown amsel between two good ones, and a shim tile with a mux. -/
def meetingRoutes : Device where
  schemaVersion := "1.0"
  name := "meeting"
  arrayOffset := 1
  tiles := [⟨3, 0, none, none⟩, ⟨3, 1, none, none⟩]
  buffers := []
  locks := []
  memories := []
  switchboxes :=
    [⟨3, 1, [⟨⟨.south, 1⟩, ⟨.dma, 0⟩⟩, ⟨⟨.south, 9⟩, ⟨.dma, 1⟩⟩],
        [⟨"first", 1, 0⟩, ⟨"second", 2, 3⟩],
        [⟨⟨.dma, 0⟩, ["first", "second"]⟩, ⟨⟨.north, 0⟩, ["third"]⟩],
        [⟨⟨.south, 1⟩, [⟨31, 4, "first"⟩, ⟨31, 5, "third"⟩, ⟨31, 6, "second"⟩]⟩]⟩,
      ⟨3, 0, [⟨⟨.south, 3⟩, ⟨.north, 0⟩⟩], [], [], []⟩]
  shimMuxes := [⟨3, 0, [⟨⟨.dma, 0⟩, ⟨.north, 3⟩⟩]⟩]

theorem meetingRoutes_routed : meetingRoutes.streamSteps.Completes ∧
    meetingRoutes.Routed .empty (meetingRoutes.streamSteps.applyTo .empty) := by
  have hs : meetingRoutes.streamSteps.Completes := by
    unfold Script.Completes
    decide +kernel
  exact ⟨hs, streamSteps_routed hs .empty⟩

/-- The master set comes behind the circuit, so the DMA port is its. -/
example : (meetingRoutes.routingItems ⟨1, 3, 1, by decide, by decide, by decide⟩).filterMap
    (RoutingItem.masterWord? false 2) = [0x80000008, 0xC00000CA] := by
  decide +kernel

end Device
end ArrayImage
