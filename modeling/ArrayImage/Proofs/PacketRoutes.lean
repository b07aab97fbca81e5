import ArrayImage.Proofs.Decoding
import ArrayImage.Proofs.Faults

/-!
# ArrayImage.Proofs.PacketRoutes

Which packets come out of which port.

A slot sends its packets to one select of one arbiter, as two numbers. A master has the number of
its arbiter, and one bit for each select that it takes. `StreamWord.Routes` compares the two words,
and `packets_reach` says what that means for the amsels behind them: the arbiter is the one of the
last amsel of the master, and the select is the one of any of them.
-/

namespace ArrayImage

open RegisterMap

/-! ## Words -/

/-- The master takes what the slot sends: it has the arbiter of the slot and the bit of its
select. -/
def StreamWord.Routes (slot master : Word) : Prop :=
  (PacketSlot.arbiter.get slot).toNat = (master.extractLsb' 0 3).toNat ∧
    master.getLsbD (3 + (PacketSlot.msel.get slot).toNat) = true

instance (slot master : Word) : Decidable (StreamWord.Routes slot master) :=
  inferInstanceAs (Decidable (_ ∧ _))

/-- There are six arbiters, with four selects each. -/
structure Amsel.InRange (a : Amsel) : Prop where
  arbiter : a.arbiter ≤ 5
  msel : a.msel ≤ 3

namespace Amsel.InRange

variable {a : Amsel}

theorem arbiter_lt (h : a.InRange) : a.arbiter.toNat < 8 := by
  have := UInt8.le_iff_toNat_le.mp h.arbiter
  simp at this
  omega

theorem msel_lt (h : a.InRange) : a.msel.toNat < 4 := by
  have := UInt8.le_iff_toNat_le.mp h.msel
  simp at this
  omega

end Amsel.InRange

theorem StreamWord.routes_iff {r : PacketRule} {a last : Amsel} {amsels : List Amsel}
    {slot master : Word} (hslot : r.Decodes (· < ·) a slot)
    (hmaster : Amsel.Decode (· < ·) amsels master) (ha : a.InRange)
    (hlast : amsels.getLast? = some last) (hin : last.InRange) :
    Routes slot master ↔ a.arbiter = last.arbiter ∧ ∃ x ∈ amsels, x.msel = a.msel := by
  have harbiter : (PacketSlot.arbiter.get slot).toNat = (master.extractLsb' 0 3).toNat ↔
      a.arbiter = last.arbiter := by
    rw [hslot.arbiter ha.arbiter_lt, hmaster.arbiter last hlast hin.arbiter_lt, UInt8.toNat_inj]
  have hselect : master.getLsbD (3 + a.msel.toNat) = true ↔ ∃ x ∈ amsels, x.msel = a.msel := by
    have hbit := hmaster.selects last hlast hin.arbiter_lt a.msel.toNat
    rw [BitVec.getLsbD_extractLsb', decide_eq_true ha.msel_lt, Bool.true_and] at hbit
    simpa [ha.msel_lt, UInt8.toNat_inj] using hbit
  rw [Routes, harbiter, hslot.msel ha.msel_lt, hselect]

/-! ## Items -/

namespace Switchbox

variable {s : Switchbox} {names : List String} {amsels : List Amsel} {last : Amsel}

/-- The amsels of a switchbox are those that the switch has. -/
def InRange (s : Switchbox) : Prop :=
  ∀ a ∈ s.amsels, a.InRange

theorem InRange.amsel? (h : s.InRange) {name : String} {a : Amsel}
    (ha : s.amsel? name = some a) : a.InRange :=
  h a (List.mem_of_find?_eq_some ha)

theorem InRange.mapM (h : s.InRange) (hk : names.mapM s.amsel? = some amsels) :
    ∀ a ∈ amsels, a.InRange := by
  induction names generalizing amsels with
  | nil =>
    cases hk
    simp
  | cons name names ih =>
    simp only [List.mapM_cons, Option.bind_eq_bind, Option.bind_eq_some_iff] at hk
    obtain ⟨a, ha, rest, hrest, hcons⟩ := hk
    cases hcons
    rw [List.forall_mem_cons]
    exact ⟨h.amsel? ha, ih hrest⟩

theorem exists_last (hne : names ≠ []) (hk : names.mapM s.amsel? = some amsels) :
    ∃ last, amsels.getLast? = some last := by
  cases names with
  | nil => exact absurd rfl hne
  | cons name names =>
    simp only [List.mapM_cons, Option.bind_eq_bind, Option.bind_eq_some_iff] at hk
    obtain ⟨a, -, rest, -, hcons⟩ := hk
    cases hcons
    exact ⟨_, List.getLast?_cons⟩

/-- Known amsels in range are selected: no select value is too large for a bit. -/
theorem select_of_inRange (h : s.InRange) (hk : names.mapM s.amsel? = some amsels)
    (hlast : amsels.getLast? = some last) :
    s.select names 0 none = .selected (selectMask amsels) (some last.arbiter) := by
  cases hsel : s.select names 0 none with
  | unknown name =>
    rw [select_eq_unknown hsel] at hk
    cases hk
  | fault f =>
    obtain ⟨-, name, -, a, ha, hmsel⟩ := select_eq_fault hsel
    have hlt := (h.amsel? ha).msel_lt
    have hle := UInt8.le_iff_toNat_le.mp hmsel
    simp at hle
    omega
  | selected mask arbiter =>
    obtain ⟨amsels', hk', rfl, rfl⟩ := select_eq_selected hsel
    cases hk.symm.trans hk'
    simp [hlast]

end Switchbox

section Steps

variable {t : TileId} {s : Switchbox}

theorem MasterSet.steps_of_inRange (hs : s.InRange) {m : MasterSet} {master : Nat}
    (hm : m.dest.number .master t.isShim = .ok master) {amsels : List Amsel} {last : Amsel}
    (hk : m.amsels.mapM s.amsel? = some amsels) (hlast : amsels.getLast? = some last) :
    m.steps t s = [Step.put t (masterOffset master) (.put (StreamWord.packetMaster
      (Switchbox.selectMask amsels) (.ofByte last.arbiter) (m.dest.bundle == .dma)))] := by
  simp only [steps, hm, Switchbox.select_of_inRange hs hk hlast]

/-- Each rule that has a slot is among the steps of its table. -/
theorem PacketTable.mem_steps {p : PacketTable} {slave k : Nat} {r : PacketRule}
    (hp : p.source.number .slave t.isShim = .ok slave) (hk : k < slotsPerPort)
    (hr : p.rules[k]? = some r) {x : Step} (hx : x ∈ r.steps t s slave k) : x ∈ p.steps t s := by
  have htake : (p.rules.take slotsPerPort)[k]? = some r := by
    rw [List.getElem?_take_of_lt hk, hr]
  obtain ⟨hlen, hget⟩ := List.getElem?_eq_some_iff.mp htake
  simp only [steps, hp, List.mem_append, List.mem_flatten, List.mem_mapIdx]
  exact .inl ⟨_, ⟨k, hlen, rfl⟩, hget ▸ hx⟩

end Steps

/-- A rule and a master set agree on where packets go: for amsels in range, the master takes what
the slot sends exactly when the arbiter of the rule is the one of the last amsel of the set and the
select is the one of some amsel of the set. -/
theorem Switchbox.packets_reach {s : Switchbox} (hs : s.InRange) (t : TileId) {m : MasterSet}
    {amsels : List Amsel} (hne : m.amsels ≠ []) (hknown : m.amsels.mapM s.amsel? = some amsels)
    {master : Nat} (hm : m.dest.number .master t.isShim = .ok master) {p : PacketTable}
    {slave : Nat} (hp : p.source.number .slave t.isShim = .ok slave) {k : Nat} {r : PacketRule}
    (hk : k < slotsPerPort) (hr : p.rules[k]? = some r) {a : Amsel}
    (ha : s.amsel? r.amsel = some a) :
    ∃ masterWord slotWord last, amsels.getLast? = some last ∧
      m.steps t s = [Step.put t (masterOffset master) (.put masterWord)] ∧
      r.steps t s slave k = [Step.put t (slaveOffset slave) (.put StreamWord.packetSlave),
        Step.put t (slotOffset slave k) (.put slotWord)] ∧
      (∀ x ∈ r.steps t s slave k, x ∈ p.steps t s) ∧
      (StreamWord.Routes slotWord masterWord ↔
        a.arbiter = last.arbiter ∧ ∃ x ∈ amsels, x.msel = a.msel) := by
  obtain ⟨last, hlast⟩ := exists_last hne hknown
  have hin := hs.mapM hknown last (List.mem_of_getLast? hlast)
  refine ⟨_, _, last, hlast, MasterSet.steps_of_inRange hs hm hknown hlast, ?_,
    fun x hx => PacketTable.mem_steps hp hk hr hx,
    StreamWord.routes_iff (r.decodes a) (Amsel.decode hlast _) (hs.amsel? ha) hlast hin⟩
  simp only [PacketRule.steps, ha]

namespace Switchbox

def mixedSet : MasterSet :=
  ⟨⟨.dma, 1⟩, ["other", "taken", "other", "taken"]⟩

/-- Rules with an amsel of each kind: in the set, of another arbiter, with another select, and with
the arbiter of one amsel of the set and the select of another. -/
def mixedTable : PacketTable :=
  ⟨⟨.south, 2⟩, [⟨31, 1, "taken"⟩, ⟨31, 2, "other"⟩, ⟨31, 3, "idle"⟩, ⟨31, 4, "lent"⟩]⟩

def mixed : Switchbox where
  column := 3
  row := 1
  connects := []
  amsels := [⟨"taken", 5, 3⟩, ⟨"other", 0, 2⟩, ⟨"idle", 5, 1⟩, ⟨"lent", 5, 2⟩]
  masterSets := [mixedSet]
  packetTables := [mixedTable]

/-- An amsel of the set is left out, and one that the set does not name is taken. -/
theorem mixed_packets_reach :
    let t : TileId := { array := 0, column := 3, row := 1 }
    let steps := fun slot word => [Step.put t (slaveOffset 9) (.put StreamWord.packetSlave),
      Step.put t (slotOffset 9 slot) (.put word)]
    mixed.InRange ∧
      (∃ master slot, mixedSet.steps t mixed = [Step.put t (masterOffset 3) (.put master)] ∧
        PacketRule.steps t mixed 9 1 ⟨31, 2, "other"⟩ = steps 1 slot ∧
        ¬ StreamWord.Routes slot master) ∧
      (∃ master slot, mixedSet.steps t mixed = [Step.put t (masterOffset 3) (.put master)] ∧
        PacketRule.steps t mixed 9 3 ⟨31, 4, "lent"⟩ = steps 3 slot ∧
        StreamWord.Routes slot master) := by
  intro t steps
  have hin : mixed.InRange := by
    simp only [InRange, mixed, List.forall_mem_cons]
    exact ⟨⟨by decide, by decide⟩, ⟨by decide, by decide⟩, ⟨by decide, by decide⟩,
      ⟨by decide, by decide⟩, by simp⟩
  refine ⟨hin, ?_, ?_⟩
  · obtain ⟨master, slot, last, hlast, hm, hr, -, hroutes⟩ :=
      packets_reach hin t (m := mixedSet) (by decide) rfl rfl (p := mixedTable) rfl (k := 1)
        (by decide) rfl rfl
    cases hlast
    refine ⟨master, slot, hm, hr, ?_⟩
    rw [hroutes]
    decide
  · obtain ⟨master, slot, last, hlast, hm, hr, -, hroutes⟩ :=
      packets_reach hin t (m := mixedSet) (by decide) rfl rfl (p := mixedTable) rfl (k := 3)
        (by decide) rfl rfl
    cases hlast
    refine ⟨master, slot, hm, hr, ?_⟩
    rw [hroutes]
    decide

end Switchbox
end ArrayImage
