import ArrayImage.Proofs.Placement

/-!
# ArrayImage.Proofs.Ports

The ports of stream switches and the registers that the stream phase writes.

A port that a design names has at most one number on each side of a switch (`Port.mapped?`), and
that number is below the limit of its kind of tile. So what a switch item writes are whole words
in the registers of a port (`Write.IsRoute`), and what a shim mux writes are bits of its two
registers (`Write.IsMux`).
-/

namespace ArrayImage

open RegisterMap

/-! ## Ports -/

namespace Port

/-- The number of a port that the switch has. -/
def mapped? (p : Port) (side : Side) (shim : Bool) : Option Nat :=
  match p.bundle.ports side shim with
  | some range => if p.index.toNat < range.count then some (range.first + p.index.toNat) else none
  | none => none

theorem mapped?_of_number_ok {p : Port} {side : Side} {shim : Bool} {n : Nat}
    (h : p.number side shim = .ok n) : p.mapped? side shim = some n := by
  unfold number at h
  unfold mapped?
  cases hr : p.bundle.ports side shim with
  | none =>
    rw [hr] at h
    cases h
  | some range =>
    rw [hr] at h
    simp only at h ⊢
    split at h
    · cases h
      rw [if_pos ‹_›]
    · cases h

theorem mapped?_of_number_error {p : Port} {side : Side} {shim : Bool} {e : RouteError}
    (h : p.number side shim = .error e) : p.mapped? side shim = none := by
  unfold number at h
  unfold mapped?
  cases hr : p.bundle.ports side shim with
  | none => rfl
  | some range =>
    rw [hr] at h
    simp only at h ⊢
    split at h
    · cases h
    · rw [if_neg ‹_›]

/-- The number of ports on one side of a switch, with the ones that no bundle has. -/
def limit (shim : Bool) : Nat :=
  if shim then 23 else 25

theorem ports_le_limit {b : Bundle} {side : Side} {shim : Bool} {range : PortRange}
    (h : b.ports side shim = some range) : range.first + range.count ≤ limit shim := by
  cases b <;> cases side <;> cases shim <;> cases h <;> decide

theorem mapped?_lt {p : Port} {side : Side} {shim : Bool} {n : Nat}
    (h : p.mapped? side shim = some n) : n < limit shim := by
  unfold mapped? at h
  cases hr : p.bundle.ports side shim with
  | none =>
    rw [hr] at h
    cases h
  | some range =>
    have hle := ports_le_limit hr
    rw [hr] at h
    simp only at h
    split at h
    · cases h
      omega
    · cases h

theorem number_lt {p : Port} {side : Side} {shim : Bool} {n : Nat}
    (h : p.number side shim = .ok n) : n < limit shim :=
  mapped?_lt (mapped?_of_number_ok h)

theorem limit_le (shim : Bool) : limit shim ≤ 25 := by
  cases shim <;> decide

end Port

/-! ## Registers -/

/-- The places of the registers that a port of the switch has. -/
def IsSwitchOffset (shim : Bool) (o : Nat) : Prop :=
  ∃ p < Port.limit shim, o = masterOffset p ∨ o = slaveOffset p ∨ ∃ k < slotsPerPort,
    o = slotOffset p k

def Write.IsRoute (w : Write) : Prop :=
  IsSwitchOffset w.register.tile.isShim w.register.offset ∧ ∃ v, w.update = .put v

theorem isRoute_of_put {t : TileId} {o : Nat} {v : Word} {w : Write}
    (h : Step.put t o (.put v) = .write w) (ho : IsSwitchOffset t.isShim o) : w.IsRoute := by
  obtain ⟨rfl, rfl, hu⟩ := Step.eq_of_put_eq_write h
  exact ⟨ho, v, hu⟩

theorem Connect.isRoute_steps (t : TileId) (c : Connect) :
    Script.AllWrites Write.IsRoute (c.steps t) := by
  unfold steps
  split
  · simp
  · rename_i slave hs
    split
    · simp
    · rename_i master hm
      simp only [Script.allWrites_cons, Script.allWrites_nil, and_true]
      constructor
      · intro w hw
        exact isRoute_of_put hw ⟨master, Port.number_lt hm, .inl rfl⟩
      · intro w hw
        exact isRoute_of_put hw ⟨slave, Port.number_lt hs, .inr (.inl rfl)⟩

theorem MasterSet.isRoute_steps (t : TileId) (s : Switchbox) (m : MasterSet) :
    Script.AllWrites Write.IsRoute (m.steps t s) := by
  unfold steps
  split
  · simp
  · rename_i master hm
    split
    · simp
    · simp
    · simp
    · simp only [Script.allWrites_cons, Script.allWrites_nil, and_true]
      intro w hw
      exact isRoute_of_put hw ⟨master, Port.number_lt hm, .inl rfl⟩

theorem PacketTable.isRoute_steps (t : TileId) (s : Switchbox) (p : PacketTable) :
    Script.AllWrites Write.IsRoute (p.steps t s) := by
  unfold steps
  split
  · simp
  · rename_i slave hs
    rw [Script.allWrites_append]
    constructor
    · intro w hw
      obtain ⟨ys, hys, hwy⟩ := List.mem_flatten.mp hw
      obtain ⟨slot, hslot, rfl⟩ := List.mem_mapIdx.mp hys
      have hk : slot < slotsPerPort := Nat.lt_of_lt_of_le hslot (List.length_take_le _ _)
      unfold PacketRule.steps at hwy
      split at hwy
      · simp at hwy
      · simp only [List.mem_cons, List.not_mem_nil, or_false] at hwy
        rcases hwy with hwy | hwy
        · exact isRoute_of_put hwy.symm ⟨slave, Port.number_lt hs, .inr (.inl rfl)⟩
        · exact isRoute_of_put hwy.symm ⟨slave, Port.number_lt hs, .inr (.inr ⟨slot, hk, rfl⟩)⟩
    · split <;> simp

theorem Switchbox.isRoute_steps (t : TileId) (s : Switchbox) :
    Script.AllWrites Write.IsRoute (s.steps t) := by
  simp only [steps, Script.allWrites_append, Script.allWrites_flatMap]
  refine ⟨⟨?_, ?_⟩, ?_⟩
  · intro c _
    exact c.isRoute_steps t
  · intro m _
    exact m.isRoute_steps t s
  · intro p _
    exact p.isRoute_steps t s

theorem Device.isRoute_switchSteps (d : Device) :
    Script.AllWrites Write.IsRoute d.switchSteps := by
  rw [switchSteps, Script.allWrites_flatMap]
  intro s _
  refine Script.allWrites_onTile ?_
  intro t _
  exact s.isRoute_steps t

def Write.IsMux (w : Write) : Prop :=
  (w.register.offset = shimMux ∨ w.register.offset = shimDemux) ∧ ∃ v, w.update = .raise v

theorem Connect.muxBits_offset {c : Connect} {o : Nat} {bits : Word}
    (h : c.muxBits = .ok (some (o, bits))) : o = shimMux ∨ o = shimDemux := by
  unfold muxBits at h
  split at h
  · cases hs : demuxShift c.source.index with
    | error e =>
      rw [hs] at h
      cases h
    | ok shift =>
      cases hb : c.dest.bundle.muxSelect with
      | error e =>
        rw [hs, hb] at h
        cases h
      | ok select =>
        rw [hs, hb] at h
        cases h
        exact .inr rfl
  · split at h
    · cases hs : muxShift c.dest.index with
      | error e =>
        rw [hs] at h
        cases h
      | ok shift =>
        cases hb : c.source.bundle.muxSelect with
        | error e =>
          rw [hs, hb] at h
          cases h
        | ok select =>
          rw [hs, hb] at h
          cases h
          exact .inl rfl
    · cases h

theorem Connect.isMux_muxSteps (t : TileId) (c : Connect) :
    Script.AllWrites Write.IsMux (c.muxSteps t) := by
  unfold muxSteps
  split
  · simp
  · simp
  · rename_i o bits hb
    simp only [Script.allWrites_cons, Script.allWrites_nil, and_true]
    intro w hw
    obtain ⟨-, ho, hu⟩ := Step.eq_of_put_eq_write hw
    exact ⟨ho ▸ muxBits_offset hb, bits, hu⟩

theorem Device.isMux_muxSteps (d : Device) : Script.AllWrites Write.IsMux d.muxSteps := by
  rw [muxSteps, Script.allWrites_flatMap]
  intro m _
  refine Script.allWrites_onTile ?_
  intro t _
  rw [Script.allWrites_flatMap]
  intro c _
  exact c.isMux_muxSteps t

/-! ## Places -/

theorem ne_mux_of_masterBase_le {o : Nat} (h : masterBase ≤ o) : o ≠ shimMux ∧ o ≠ shimDemux := by
  simp only [masterBase, shimMux, shimDemux] at h ⊢
  omega

theorem masterBase_le_masterOffset (m : Nat) : masterBase ≤ masterOffset m := by
  simp only [masterOffset]
  omega

theorem masterBase_le_slaveOffset (s : Nat) : masterBase ≤ slaveOffset s := by
  simp only [slaveOffset, slaveBase, masterBase]
  omega

theorem masterBase_le_slotOffset (s k : Nat) : masterBase ≤ slotOffset s k := by
  simp only [slotOffset, slotBase, masterBase]
  omega

theorem masterOffset_lt {m : Nat} (hm : m < 64) : masterOffset m < windowSize := by
  rw [windowSize_eq]
  simp only [masterOffset, masterBase]
  omega

theorem slaveOffset_lt {s : Nat} (hs : s < 64) : slaveOffset s < windowSize := by
  rw [windowSize_eq]
  simp only [slaveOffset, slaveBase]
  omega

theorem slotOffset_lt {s k : Nat} (hs : s < 224) (hk : k < slotsPerPort) :
    slotOffset s k < windowSize := by
  rw [windowSize_eq]
  simp only [slotOffset, slotBase, slotsPerPort] at hk ⊢
  omega

theorem masterOffset_inj {m n : Nat} : masterOffset m = masterOffset n ↔ m = n := by
  simp only [masterOffset]
  omega

theorem slaveOffset_inj {m n : Nat} : slaveOffset m = slaveOffset n ↔ m = n := by
  simp only [slaveOffset]
  omega

theorem slotOffset_inj {s s' k k' : Nat} (hk : k < slotsPerPort) (hk' : k' < slotsPerPort) :
    slotOffset s k = slotOffset s' k' ↔ s = s' ∧ k = k' := by
  simp only [slotOffset, slotsPerPort] at hk hk' ⊢
  omega

theorem masterOffset_ne_slaveOffset {m : Nat} (hm : m < 64) (s : Nat) :
    masterOffset m ≠ slaveOffset s := by
  simp only [masterOffset, slaveOffset, masterBase, slaveBase]
  omega

theorem masterOffset_ne_slotOffset {m : Nat} (hm : m < 64) (s k : Nat) :
    masterOffset m ≠ slotOffset s k := by
  simp only [masterOffset, slotOffset, masterBase, slotBase]
  omega

theorem slaveOffset_ne_slotOffset {m : Nat} (hm : m < 64) (s k : Nat) :
    slaveOffset m ≠ slotOffset s k := by
  simp only [slaveOffset, slotOffset, slaveBase, slotBase]
  omega

theorem IsSwitchOffset.masterBase_le {shim : Bool} {o : Nat} (h : IsSwitchOffset shim o) :
    masterBase ≤ o ∧ o < windowSize ∧ o % 4 = 0 := by
  obtain ⟨p, hp, h⟩ := h
  have hlim := Port.limit_le shim
  rcases h with rfl | rfl | ⟨k, hk, rfl⟩
  · refine ⟨masterBase_le_masterOffset p, masterOffset_lt (by omega), ?_⟩
    simp only [masterOffset, masterBase]
    omega
  · refine ⟨masterBase_le_slaveOffset p, slaveOffset_lt (by omega), ?_⟩
    simp only [slaveOffset, slaveBase]
    omega
  · refine ⟨masterBase_le_slotOffset p k, slotOffset_lt (by omega) hk, ?_⟩
    simp only [slotOffset, slotBase]
    omega

end ArrayImage
