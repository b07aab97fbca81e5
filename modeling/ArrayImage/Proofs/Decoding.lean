import ArrayImage.Proofs.Clean
import ArrayImage.Proofs.DescriptorWords

/-!
# ArrayImage.Proofs.Decoding

Which declared values can be read back from the words of a clean run.

A field of a word is narrower than the value that is declared for it, and what does not fit is
dropped without a report. So a value can be read back when it fits: `Device.WordsDecode` says so
for the length, the packet tag and the lock values of descriptors, for packet slots and for master
sets, each value on its own (`compile_wordsDecode`). Which values are asked for is a parameter,
since the statement about all of them fails for each kind (`clean_not_wordsDecode`).
-/

namespace ArrayImage

open RegisterMap

/-! ## Fields -/

/-- A value that fits can be read back. -/
theorem BitField.toNat_get_set {f : BitField} {n : Nat} (h : n < 1 <<< f.width) :
    (f.get (f.set (.ofNat n))).toNat = n := by
  rw [toNat_get_set_mod, Nat.mod_eq_of_lt h]

theorem BitField.get_flag_of_disjoint {f g : BitField} (h : f.high < g.low ∨ g.high < f.low)
    (on : Bool) : f.get (g.flag on) = 0 :=
  get_set_of_disjoint h _

/-! ## Locks -/

def LockGuard.value? (g : LockGuard) : LockAction → Option UInt32
  | .acquire => g.acquire
  | .release => g.release

def LockAction.valueField : LockAction → BitField
  | .acquire => DescriptorAddress.acquireValue
  | .release => DescriptorAddress.releaseValue

/-- The value of an action is one of the parts of a lock. -/
theorem LockGuard.mem_parts {g : LockGuard} {action : LockAction} {n : UInt32}
    (h : g.value? action = some n) (hn : n ≠ anyLockValue) :
    ⟨action.valueField.high, action.valueField.low, n.toNat⟩ ∈ g.parts := by
  have hany : n.toNat ≠ 255 := fun he => hn (UInt32.toNat_inj.mp he)
  cases action with
  | acquire =>
    have hg : g.acquire = some n := h
    simp [parts, hg, hany, LockAction.valueField, DescriptorAddress.acquireValue, BitField.bit]
  | release =>
    have hg : g.release = some n := h
    simp [parts, hg, hany, LockAction.valueField, DescriptorAddress.releaseValue, BitField.bit]

section LockGuard

variable {d : Device} {uses : List LockUse} {g : LockGuard} {start g' : Option LockGuard}

/-- A use sets the value of its action and leaves the other one. -/
theorem Device.lockGuard_cons {u : LockUse} (h : d.lockGuard (u :: uses) start = .ok g') :
    ∃ k, d.lockGuard uses (some k) = .ok g' ∧ k.value? u.action = some u.value ∧
      ∀ action ≠ u.action, k.value? action = start.bind (·.value? action) := by
  unfold lockGuard at h
  cases hl : d.lock? u.lock with
  | none => simp [hl] at h
  | some lock =>
    simp only [hl] at h
    cases ha : u.action with
    | acquire =>
      rw [ha] at h
      refine ⟨_, h, rfl, fun action hother => ?_⟩
      cases action with
      | acquire => exact absurd rfl hother
      | release => cases start <;> rfl
    | release =>
      rw [ha] at h
      refine ⟨_, h, rfl, fun action hother => ?_⟩
      cases action with
      | acquire => cases start <;> rfl
      | release => exact absurd rfl hother

/-- Uses of the other action leave a value as it is. -/
theorem Device.value?_lockGuard {action : LockAction} (hother : ∀ u ∈ uses, u.action ≠ action)
    (h : d.lockGuard uses (some g) = .ok g') :
    ∃ k, g' = some k ∧ k.value? action = g.value? action := by
  induction uses generalizing g with
  | nil =>
    cases h
    exact ⟨g, rfl, rfl⟩
  | cons u uses ih =>
    rw [List.forall_mem_cons] at hother
    obtain ⟨k, hrest, -, hkeep⟩ := lockGuard_cons h
    obtain ⟨k', rfl, hk'⟩ := ih hother.2 hrest
    exact ⟨k', rfl, hk'.trans (hkeep action hother.1.symm)⟩

/-- The last use of an action has its value in the lock of the block. -/
theorem Device.value?_lockGuard_of_last {before after : List LockUse} {u : LockUse}
    (hother : ∀ v ∈ after, v.action ≠ u.action)
    (h : d.lockGuard (before ++ u :: after) start = .ok g') :
    ∃ k, g' = some k ∧ k.value? u.action = some u.value := by
  induction before generalizing start with
  | nil =>
    obtain ⟨k, hrest, hvalue, -⟩ := lockGuard_cons h
    obtain ⟨k', rfl, hk'⟩ := value?_lockGuard hother hrest
    exact ⟨k', rfl, hk'.trans hvalue⟩
  | cons v before ih =>
    obtain ⟨k, hrest, -, -⟩ := lockGuard_cons h
    exact ih hrest

end LockGuard

/-! ## Transfers -/

def BufferSlot.pick (a b : Option BufferSpan) : BufferSlot → Option BufferSpan
  | .a => a
  | .b => b

section Gather

variable {d : Device} {addresses : AddressSource} {ts : List Transfer}
  {a b a' b' : Option BufferSpan}

/-- A transfer puts a span of its length into its slot. -/
theorem Device.gather_cons {u : Transfer} (h : d.gather addresses (u :: ts) a b = .spans a' b') :
    ∃ span a₁ b₁, span.length = u.length ∧ d.gather addresses ts a₁ b₁ = .spans a' b' ∧
      ∀ slot, slot.pick a₁ b₁ = if u.slot = slot then some span else slot.pick a b := by
  unfold gather at h
  cases ht : addresses u.buffer with
  | none => simp [ht] at h
  | some base =>
    simp only [ht] at h
    cases hadd : checkedAdd 64 base.toNat u.offset.toNat with
    | error f => simp [hadd] at h
    | ok address =>
      simp only [hadd] at h
      let span : BufferSpan := ⟨address, u.length, d.elementBytes u.buffer⟩
      cases hslot : u.slot with
      | a =>
        rw [hslot] at h
        refine ⟨span, some span, b, rfl, h, fun slot => ?_⟩
        cases slot <;> rfl
      | b =>
        rw [hslot] at h
        refine ⟨span, a, some span, rfl, h, fun slot => ?_⟩
        cases slot <;> rfl

/-- When no two transfers have the same slot, each of them is in its slot. -/
theorem Device.pick_of_gather (h : d.gather addresses ts a b = .spans a' b')
    (hnd : (ts.map Transfer.slot).Nodup) (slot : BufferSlot) :
    (∀ u ∈ ts, u.slot = slot → (slot.pick a' b').map BufferSpan.length = some u.length) ∧
      ((∀ u ∈ ts, u.slot ≠ slot) → slot.pick a' b' = slot.pick a b) := by
  induction ts generalizing a b with
  | nil =>
    cases h
    exact ⟨fun u hu => absurd hu List.not_mem_nil, fun _ => rfl⟩
  | cons u ts ih =>
    rw [List.map_cons, List.nodup_cons] at hnd
    obtain ⟨hu, hnd⟩ := hnd
    obtain ⟨span, a₁, b₁, hlen, hrest, hpick⟩ := gather_cons h
    obtain ⟨hin, hout⟩ := ih hrest hnd
    constructor
    · intro v hv hslot
      rcases List.mem_cons.mp hv with rfl | hv
      · rw [hout fun w hw he => hu (hslot ▸ he ▸ List.mem_map_of_mem hw), hpick, if_pos hslot,
          Option.map_some, hlen]
      · exact hin v hv hslot
    · intro hother
      rw [List.forall_mem_cons] at hother
      rw [hout hother.2, hpick, if_neg hother.1]

end Gather

/-! ## Descriptors -/

namespace Descriptor

variable {x : Descriptor}

theorem length_eq_of_a {n : UInt32} (h : x.a.map BufferSpan.length = some n) : x.length = n := by
  obtain ⟨span, ha, rfl⟩ := Option.map_eq_some_iff.mp h
  rw [length, ha]

theorem length_eq_of_b {n : UInt32} (ha : x.a = none) (h : x.b.map BufferSpan.length = some n) :
    x.length = n := by
  obtain ⟨span, hb, rfl⟩ := Option.map_eq_some_iff.mp h
  rw [length, ha, hb]

section Parts

variable (next : Option Nat)

theorem toNat_get_length (h : (x.length - 1).toNat < 0x2000) :
    (DescriptorControl.length.get (x.controlWord next)).toNat = (x.length - 1).toNat := by
  refine (x.holds_controlWord next).toNat_get ?_ h
  rw [length_eq]
  simp [controlLayout, DescriptorControl.length]

theorem toNat_get_packetId {tag : PacketTag} (h : x.packet = some tag) (hn : tag.id.toNat < 32) :
    (DescriptorPacket.id.get x.packetWord).toNat = tag.id.toNat := by
  refine x.holds_packetWord.toNat_get ?_ hn
  simp [packetLayout, h, DescriptorPacket.id]

theorem toNat_get_packetKind {tag : PacketTag} (h : x.packet = some tag)
    (hn : tag.kind.toNat < 8) :
    (DescriptorPacket.kind.get x.packetWord).toNat = tag.kind.toNat := by
  refine x.holds_packetWord.toNat_get ?_ hn
  simp [packetLayout, h, DescriptorPacket.kind]

/-- Next to a buffer, the values of a lock are in the address word. -/
theorem toNat_get_valueField {a : BufferSpan} {g : LockGuard} (ha : x.a = some a)
    (hg : x.lock = some g) {action : LockAction} {n : UInt32} (h : g.value? action = some n)
    (hn : n ≠ anyLockValue) (hfits : n.toNat < 2) :
    (action.valueField.get x.addressWordA).toNat = n.toNat := by
  have hpart := g.mem_parts h hn
  refine x.holds_addressWordA.toNat_get ?_ (Nat.lt_of_lt_of_le hfits ?_)
  · simp [addressLayoutA, ha, hg, hpart]
  · cases action <;> decide

end Parts

end Descriptor

/-- What a block without reports has in its descriptor. -/
theorem DmaBlock.describe_eq {d : Device} {addresses : AddressSource} {t : TileId} {b : DmaBlock}
    {x : Descriptor} (h : b.describe d addresses t = (some x, [])) :
    d.gather addresses b.transfers none none = .spans x.a x.b ∧ x.packet = b.packet ∧
      d.blockLock b x.b = (x.lock, []) := by
  unfold describe at h
  split at h
  · cases h
  · cases hg : d.gather addresses b.transfers none none with
    | unresolved buffer =>
      rw [hg] at h
      cases h
    | fault f =>
      rw [hg] at h
      cases h
    | spans a b' =>
      simp only [hg, Prod.mk.injEq, Option.some.injEq, List.map_eq_nil_iff,
        List.append_eq_nil_iff] at h
      obtain ⟨rfl, -, hlock⟩ := h
      exact ⟨rfl, rfl, Prod.ext rfl hlock⟩

/-! ## Stream words -/

namespace StreamWord

theorem get_packetSlot (id mask msel arbiter : UInt8) :
    let w := packetSlot id mask msel arbiter
    PacketSlot.id.get w = PacketSlot.id.get (PacketSlot.id.set (.ofByte id)) ∧
      PacketSlot.mask.get w = PacketSlot.mask.get (PacketSlot.mask.set (.ofByte mask)) ∧
      PacketSlot.msel.get w = PacketSlot.msel.get (PacketSlot.msel.set (.ofByte msel)) ∧
      PacketSlot.arbiter.get w =
        PacketSlot.arbiter.get (PacketSlot.arbiter.set (.ofByte arbiter)) := by
  refine ⟨?_, ?_, ?_, ?_⟩ <;>
    simp (disch := decide) [packetSlot, BitField.get_flag_of_disjoint,
      BitField.get_set_of_disjoint]

/-- The selects and the arbiter are below the other fields. -/
theorem getLsbD_packetMaster (mask arbiter : Word) (drop : Bool) {i : Nat} (hi : i < 7) :
    (packetMaster mask arbiter drop).getLsbD i = (mask <<< 3 ||| arbiter).getLsbD i := by
  have h : ∀ f ∈ [StreamPort.enable, StreamPort.packetEnable, StreamPort.dropHeader],
      ∀ v, (f.set v).getLsbD i = false := by
    intro f hf v
    have hlow : i < f.low := by
      simp only [List.mem_cons, List.not_mem_nil, or_false] at hf
      rcases hf with rfl | rfl | rfl <;> exact Nat.lt_of_lt_of_le hi (by decide)
    rw [BitField.getLsbD_set, decide_eq_false (Nat.not_le_of_lt hlow)]
    rfl
  have hconfig : ∀ v, (StreamPort.config.set v).getLsbD i = v.getLsbD i := by
    intro v
    have hlow : StreamPort.config.low ≤ i := Nat.zero_le i
    have hhigh : i ≤ StreamPort.config.high := Nat.le_of_lt_succ hi
    rw [BitField.getLsbD_set, decide_eq_true hlow, decide_eq_true hhigh]
    rfl
  simp only [packetMaster, BitField.flag, BitVec.getLsbD_or]
  rw [h _ (by simp), h _ (by simp), h _ (by simp), hconfig]
  simp

end StreamWord

theorem Switchbox.getLsbD_selectMask (amsels : List Amsel) {j : Nat} (hj : j < 32) :
    (selectMask amsels).getLsbD j = true ↔ ∃ a ∈ amsels, a.msel.toNat = j := by
  induction amsels with
  | nil => simp [selectMask]
  | cons a amsels ih =>
    have hbit : ((1 <<< a.msel.toNat : Nat) : Word).getLsbD j = decide (a.msel.toNat = j) := by
      rw [BitVec.natCast_eq_ofNat, BitVec.getLsbD_ofNat, Nat.one_shiftLeft, Nat.testBit_two_pow,
        decide_eq_true hj, Bool.true_and]
    rw [selectMask, List.foldr_cons, BitVec.getLsbD_or, hbit, Bool.or_eq_true, decide_eq_true_eq,
      List.exists_mem_cons_iff]
    exact or_congr_right ih

/-! ## Declared values -/

/-- No later use has the same action. -/
def LockUse.IsLast (u : LockUse) (later : List LockUse) : Prop :=
  ∀ v ∈ later, v.action ≠ u.action

section Decodes

-- `fits n bound`: a value is asked for where a field has `bound` values; `counts u later`: the use
-- of a lock is asked for where these uses follow
variable (fits : Nat → Nat → Prop) (counts : LockUse → List LockUse → Prop)

/-- The values of a block can be read back from the words of its descriptor. -/
structure DmaBlock.Decodes (b : DmaBlock) (x : Descriptor) (next : Option Nat) : Prop where
  /-- The length is the one of the transfer in the first slot, or in the second one when there is
  no other. -/
  length : ∀ u ∈ b.transfers, (u.slot = .a ∨ ∀ v ∈ b.transfers, v.slot = .b) →
    fits (u.length - 1).toNat 0x2000 →
    (DescriptorControl.length.get (x.controlWord next)).toNat + 1 = u.length.toNat
  packetId : ∀ tag ∈ b.packet, fits tag.id.toNat 32 →
    (DescriptorPacket.id.get x.packetWord).toNat = tag.id.toNat
  packetKind : ∀ tag ∈ b.packet, fits tag.kind.toNat 8 →
    (DescriptorPacket.kind.get x.packetWord).toNat = tag.kind.toNat
  lockValue : ∀ before u later, b.locks = before ++ u :: later → counts u later →
    u.value ≠ anyLockValue → fits u.value.toNat 2 →
    (u.action.valueField.get x.addressWordA).toNat = u.value.toNat

/-- The values of a rule and of its amsel can be read back from a slot word. -/
structure PacketRule.Decodes (r : PacketRule) (a : Amsel) (w : Word) : Prop where
  value : fits r.value.toNat 32 → (PacketSlot.id.get w).toNat = r.value.toNat
  mask : fits r.mask.toNat 32 → (PacketSlot.mask.get w).toNat = r.mask.toNat
  msel : fits a.msel.toNat 4 → (PacketSlot.msel.get w).toNat = a.msel.toNat
  arbiter : fits a.arbiter.toNat 8 → (PacketSlot.arbiter.get w).toNat = a.arbiter.toNat

/-- The amsels of a master set can be read back from a master word: the arbiter of the last one,
and the selects of all. -/
structure Amsel.Decode (amsels : List Amsel) (w : Word) : Prop where
  arbiter : ∀ last ∈ amsels.getLast?, fits last.arbiter.toNat 8 →
    (w.extractLsb' 0 3).toNat = last.arbiter.toNat
  /-- An arbiter that does not fit reaches into the selects. -/
  selects : ∀ last ∈ amsels.getLast?, fits last.arbiter.toNat 8 → ∀ j,
    (w.extractLsb' 3 4).getLsbD j = true ↔ ∃ a ∈ amsels, a.msel.toNat = j ∧ fits j 4

/-- Every block with transfers, every master set and every rule of a design has its words, from
which its values can be read back. -/
structure Device.WordsDecode (d : Device) (addresses : AddressSource) : Prop where
  block : ∀ m ∈ d.memories, ∃ t, d.locate m.column m.row = .ok t ∧
    ∀ i b, m.transferring[i]? = some b → ∃ x next, b.describe d addresses t = (some x, []) ∧
      (∀ p ∈ x.words next,
        Step.put t (descriptorOffset i + p.1) (.put p.2) ∈ m.steps d addresses t) ∧
      b.Decodes fits counts x next
  masterSet : ∀ s ∈ d.switchboxes, ∃ t, d.locate s.column s.row = .ok t ∧
    ∀ m ∈ s.masterSets, ∃ master w amsels, m.dest.number .master t.isShim = .ok master ∧
      m.steps t s = [Step.put t (masterOffset master) (.put w)] ∧
      m.amsels.mapM s.amsel? = some amsels ∧ Amsel.Decode fits amsels w
  rule : ∀ s ∈ d.switchboxes, ∃ t, d.locate s.column s.row = .ok t ∧
    ∀ p ∈ s.packetTables, ∀ k r, p.rules[k]? = some r → ∃ slave w a,
      p.source.number .slave t.isShim = .ok slave ∧ s.amsel? r.amsel = some a ∧
      k < slotsPerPort ∧
      r.steps t s slave k = [Step.put t (slaveOffset slave) (.put StreamWord.packetSlave),
        Step.put t (slotOffset slave k) (.put w)] ∧ r.Decodes fits a w

end Decodes

/-! ### Blocks -/

theorem Device.lockGuard_of_blockLock {d : Device} {b : DmaBlock} {y : Option BufferSpan}
    {lock : Option LockGuard} (h : d.blockLock b y = (lock, [])) (hne : b.locks ≠ []) :
    d.lockGuard b.locks none = .ok lock ∧ y = none := by
  unfold blockLock at h
  rw [if_neg (by simpa using hne)] at h
  cases hg : d.lockGuard b.locks none with
  | error name => simp [hg] at h
  | ok guard =>
    simp only [hg, Prod.mk.injEq] at h
    obtain ⟨rfl, hy⟩ := h
    refine ⟨rfl, ?_⟩
    cases y with
    | none => rfl
    | some span => cases hy

section Block

variable {d : Device} {addresses : AddressSource} {t : TileId} {b : DmaBlock} {x : Descriptor}

theorem DmaBlock.transfers_ne_nil (h : b.describe d addresses t = (some x, [])) :
    b.transfers ≠ [] := by
  intro hnil
  rw [describe, hnil] at h
  cases h

/-- A block with a lock and no report has its buffer in the first slot. -/
theorem DmaBlock.exists_a (hb : b.Valid d) (h : b.describe d addresses t = (some x, []))
    (hx : x.b = none) : ∃ a, x.a = some a := by
  obtain ⟨hg, -, -⟩ := describe_eq h
  obtain ⟨u, hu⟩ := List.exists_mem_of_ne_nil _ (transfers_ne_nil h)
  have hpick := (Device.pick_of_gather hg hb.slots_nodup u.slot).1 u hu rfl
  obtain ⟨span, hspan, -⟩ := Option.map_eq_some_iff.mp hpick
  cases hslot : u.slot with
  | a =>
    rw [hslot] at hspan
    exact ⟨span, hspan⟩
  | b =>
    rw [hslot] at hspan
    cases hx.symm.trans hspan

theorem DmaBlock.length_eq (hb : b.Valid d) (h : b.describe d addresses t = (some x, []))
    {u : Transfer} (hu : u ∈ b.transfers) (hslot : u.slot = .a ∨ ∀ v ∈ b.transfers, v.slot = .b) :
    x.length = u.length := by
  obtain ⟨hg, -, -⟩ := describe_eq h
  obtain ⟨hin, hout⟩ := Device.pick_of_gather hg hb.slots_nodup .a
  rcases hslot with ha | hall
  · exact x.length_eq_of_a (hin u hu ha)
  · have hnone : x.a = none := hout fun v hv he => by
      rw [hall v hv] at he
      cases he
    have hspan := (Device.pick_of_gather hg hb.slots_nodup .b).1 u hu (hall u hu)
    exact x.length_eq_of_b hnone hspan

theorem DmaBlock.decodes (hb : b.Valid d) (h : b.describe d addresses t = (some x, []))
    (next : Option Nat) : b.Decodes (· < ·) LockUse.IsLast x next := by
  obtain ⟨-, hpacket, hlock⟩ := describe_eq h
  constructor
  case length =>
    intro u hu hslot hfits
    have hlength := length_eq hb h hu hslot
    rw [x.toNat_get_length next (by rwa [hlength]), hlength]
    have := u.length.toNat_lt
    have hone : (1 : UInt32).toNat = 1 := rfl
    rw [UInt32.toNat_sub, hone] at hfits ⊢
    omega
  case packetId =>
    intro tag htag hfits
    exact x.toNat_get_packetId (hpacket.trans htag) hfits
  case packetKind =>
    intro tag htag hfits
    exact x.toNat_get_packetKind (hpacket.trans htag) hfits
  case lockValue =>
    intro before u later hlocks hlast hany hfits
    have hne : b.locks ≠ [] := by
      rw [hlocks]
      exact List.append_ne_nil_of_right_ne_nil _ (List.cons_ne_nil _ _)
    obtain ⟨hguard, hb'⟩ := Device.lockGuard_of_blockLock hlock hne
    obtain ⟨a, ha⟩ := exists_a hb h hb'
    rw [hlocks] at hguard
    obtain ⟨g, hg, hvalue⟩ := Device.value?_lockGuard_of_last hlast hguard
    exact x.toNat_get_valueField ha hg hvalue hany hfits

end Block

/-! ### Routes -/

theorem PacketRule.decodes (r : PacketRule) (a : Amsel) :
    r.Decodes (· < ·) a (StreamWord.packetSlot r.value r.mask a.msel a.arbiter) := by
  obtain ⟨hvalue, hmask, hmsel, harbiter⟩ :=
    StreamWord.get_packetSlot r.value r.mask a.msel a.arbiter
  constructor
  case value =>
    intro hfits
    rw [hvalue]
    exact BitField.toNat_get_set hfits
  case mask =>
    intro hfits
    rw [hmask]
    exact BitField.toNat_get_set hfits
  case msel =>
    intro hfits
    rw [hmsel]
    exact BitField.toNat_get_set hfits
  case arbiter =>
    intro hfits
    rw [harbiter]
    exact BitField.toNat_get_set hfits

theorem Amsel.decode {amsels : List Amsel} {last : Amsel} (hlast : amsels.getLast? = some last)
    (drop : Bool) : Amsel.Decode (· < ·) amsels (StreamWord.packetMaster
      (Switchbox.selectMask amsels) (.ofByte last.arbiter) drop) := by
  have hbyte : ∀ i < 32, (Word.ofByte last.arbiter).getLsbD i = last.arbiter.toNat.testBit i := by
    intro i hi
    rw [Word.ofByte, BitVec.getLsbD_ofNat, decide_eq_true hi, Bool.true_and]
  have hpast : ∀ i, last.arbiter.toNat < 8 → 3 ≤ i → last.arbiter.toNat.testBit i = false :=
    fun i hfits hi => Nat.testBit_lt_two_pow
      (Nat.lt_of_lt_of_le hfits (Nat.pow_le_pow_right (show 0 < 2 by decide) hi))
  constructor
  case arbiter =>
    intro last' h' hfits
    cases hlast.symm.trans h'
    apply Nat.eq_of_testBit_eq
    intro i
    rw [BitVec.testBit_toNat, BitVec.getLsbD_extractLsb', Nat.zero_add]
    by_cases hi : i < 3
    · rw [StreamWord.getLsbD_packetMaster _ _ _ (by omega), BitVec.getLsbD_or,
        BitVec.getLsbD_shiftLeft, hbyte i (by omega)]
      simp [hi]
    · rw [hpast i hfits (by omega), decide_eq_false hi, Bool.false_and]
  case selects =>
    intro last' h' hfits j
    cases hlast.symm.trans h'
    rw [BitVec.getLsbD_extractLsb']
    by_cases hj : j < 4
    · have hmask := Switchbox.getLsbD_selectMask amsels (show j < 32 by omega)
      have hpart : 3 + j < 32 := by omega
      rw [StreamWord.getLsbD_packetMaster _ _ _ (by omega), BitVec.getLsbD_or,
        hbyte _ hpart, hpast _ hfits (by omega), BitVec.getLsbD_shiftLeft, Nat.add_sub_cancel_left]
      simp [hj, hpart, hmask]
    · simp [hj]

/-! ## Designs -/

/-- In a clean run the block at place `i` has its words at descriptor `i`. -/
theorem MemoryDma.exists_words {d : Device} {addresses : AddressSource} {t : TileId} {m : MemoryDma}
    (hm : m.Valid d) (h : Script.Clean (m.steps d addresses t)) {i : Nat} {b : DmaBlock}
    (hb : m.transferring[i]? = some b) : ∃ x next, b.describe d addresses t = (some x, []) ∧
      ∀ p ∈ x.words next,
        Step.put t (descriptorOffset i + p.1) (.put p.2) ∈ m.steps d addresses t := by
  obtain ⟨hmem, hne⟩ := List.mem_filter.mp (List.mem_of_getElem? hb)
  obtain ⟨x, hx⟩ := DmaBlock.of_clean (clean_describe h hmem) (by simpa using hne)
  rw [← resolved_of_clean h] at hb
  have hi := (indexOf?_eq_some_iff hm).mpr ⟨b, hb, rfl⟩
  have hslot : slotOf ((m.resolved addresses).map DmaBlock.label) b.label = i := by
    rw [slotOf_resolved hm, hi, Option.getD_some]
  have hdescribed : (b, x) ∈ m.described d addresses t :=
    List.mem_filterMap.mpr ⟨b, hmem, by rw [hx]; rfl⟩
  refine ⟨x, b.next.map (slotOf ((m.resolved addresses).map DmaBlock.label)), hx, fun p hp => ?_⟩
  rw [steps_eq (isShim_of_clean h) h.completes]
  refine List.mem_append_left _ (List.mem_append_right _ (List.mem_flatMap.mpr ⟨_, hdescribed, ?_⟩))
  simp only [descriptorSteps, hslot, if_pos (show i < descriptorCount from indexOf?_lt hm hi)]
  exact List.mem_append_left _ (List.mem_map_of_mem hp)

theorem MasterSet.exists_word {t : TileId} {s : Switchbox} {m : MasterSet}
    (h : Script.Clean (m.steps t s)) : ∃ master w amsels,
      m.dest.number .master t.isShim = .ok master ∧
      m.steps t s = [Step.put t (masterOffset master) (.put w)] ∧
      m.amsels.mapM s.amsel? = some amsels ∧ Amsel.Decode (· < ·) amsels w := by
  obtain ⟨master, mask, arbiter, hm, hsel⟩ := of_clean h
  obtain ⟨amsels, hamsels, hmask, harbiter⟩ := Switchbox.select_eq_selected hsel
  rw [Option.or_none, eq_comm, Option.map_eq_some_iff] at harbiter
  obtain ⟨last, hlast, rfl⟩ := harbiter
  have hmask : mask = Switchbox.selectMask amsels := by simpa using hmask
  refine ⟨master, _, amsels, hm, ?_, hamsels, Amsel.decode hlast (m.dest.bundle == .dma)⟩
  simp only [steps, hm, hsel, hmask]

theorem PacketTable.exists_word {t : TileId} {s : Switchbox} {p : PacketTable}
    (h : Script.Clean (p.steps t s)) {k : Nat} {r : PacketRule} (hr : p.rules[k]? = some r) :
    ∃ slave w a, p.source.number .slave t.isShim = .ok slave ∧ s.amsel? r.amsel = some a ∧
      k < slotsPerPort ∧
      r.steps t s slave k = [Step.put t (slaveOffset slave) (.put StreamWord.packetSlave),
        Step.put t (slotOffset slave k) (.put w)] ∧ r.Decodes (· < ·) a w := by
  obtain ⟨slave, hs, hlen, hknown⟩ := of_clean h
  obtain ⟨a, ha⟩ := hknown r (List.mem_of_getElem? hr)
  have hk := Nat.lt_of_lt_of_le (List.getElem?_eq_some_iff.mp hr).1 hlen
  refine ⟨slave, _, a, hs, ha, hk, ?_, r.decodes a⟩
  simp only [PacketRule.steps, ha]

namespace Device

variable {d : Device} {source : ProgramSource} {dir : String} {addresses : AddressSource}

/-- What fits its field can be read back from a clean run of a valid design. -/
theorem compile_wordsDecode {r : Report} (hv : d.issues = [])
    (hc : d.compile source dir addresses = .ok r) (hr : r.isClean = true) :
    d.WordsDecode (· < ·) LockUse.IsLast addresses := by
  obtain ⟨h, -⟩ := clean_of_compile hc hr
  have hvalid := valid_of_issues hv
  obtain ⟨htiles, -, -⟩ := completes_phases h.completes
  constructor
  case block =>
    intro m hm
    obtain ⟨t, ht, hon⟩ := exists_memory hvalid htiles hm
    have hprogram := clean_program h hon
    refine ⟨t, ht, fun i b hb => ?_⟩
    obtain ⟨x, next, hx, hwords⟩ := MemoryDma.exists_words (hvalid.memory m hm) hprogram hb
    have hmem := (List.mem_filter.mp (List.mem_of_getElem? hb)).1
    exact ⟨x, next, hx, hwords, DmaBlock.decodes (block_valid hv hm hmem) hx next⟩
  case masterSet =>
    intro s hs
    obtain ⟨t, ht, hitems⟩ := exists_items hvalid htiles hs
    refine ⟨t, ht, fun m hm => MasterSet.exists_word (clean_item h (hitems (.masterSet s m) ?_))⟩
    simp [Switchbox.items, hm]
  case rule =>
    intro s hs
    obtain ⟨t, ht, hitems⟩ := exists_items hvalid htiles hs
    refine ⟨t, ht, fun p hp k r hr => ?_⟩
    refine PacketTable.exists_word (clean_item h (hitems (.packetTable s p) ?_)) hr
    simp [Switchbox.items, hp]

def northSet : MasterSet :=
  ⟨⟨.north, 0⟩, ["to"]⟩

def routed (arbiter msel : UInt8) (rule : PacketRule) : Switchbox :=
  ⟨3, 1, [], [⟨"to", arbiter, msel⟩], [northSet], [⟨⟨.south, 2⟩, [rule]⟩]⟩

def valued (blocks : List DmaBlock) (s : Switchbox) : Device where
  schemaVersion := "1.0"
  name := "valued"
  arrayOffset := 0
  tiles := [⟨3, 1, none, none⟩]
  buffers := [⟨"in", 3, 1, some 0x1000, 32⟩]
  locks := [⟨"lock", 3, 1, 5⟩]
  memories := [⟨3, 1, blocks, []⟩]
  switchboxes := [s]
  shimMuxes := []

def largest : Device :=
  valued [⟨"all", [⟨"in", .a, 0, 8192⟩], [⟨"lock", .acquire, 1⟩], some ⟨31, 7⟩, none⟩]
    (routed 7 3 ⟨31, 31, "to"⟩)

theorem largest_wordsDecode : ∃ r, largest.issues = [] ∧
    largest.compile noPrograms "." largest.addressOf? = .ok r ∧ r.isClean = true ∧
    largest.WordsDecode (· < ·) LockUse.IsLast largest.addressOf? := by
  have hv : largest.issues = [] := by decide +kernel
  have hcore : ∀ x ∈ largest.tiles, x.core = none := by simp [largest, valued]
  have hdma : (largest.dmaSteps largest.addressOf?).Clean := by decide +kernel
  obtain ⟨r, hc, hr⟩ := exists_clean_report (valid_of_issues hv) (by decide) hcore
    (by decide +kernel) hdma
  exact ⟨r, hv, hc, hr, compile_wordsDecode hv hc hr⟩

/-- A block all of whose values are one too large. -/
def oversized : DmaBlock :=
  ⟨"over", [⟨"in", .a, 0, 8193⟩], [⟨"lock", .acquire, 2⟩], some ⟨32, 8⟩, none⟩

/-- A block without a length, and with two values for one action. -/
def overruled : DmaBlock :=
  ⟨"twice", [⟨"in", .a, 0, 0⟩], [⟨"lock", .acquire, 1⟩, ⟨"lock", .acquire, 0⟩], none, none⟩

def truncated : Device :=
  valued [oversized, overruled] (routed 8 4 ⟨32, 32, "to"⟩)

def truncatedTile : TileId :=
  truncated.sampleTile (Nat.le_of_ble_eq_true rfl)

/-- Of every kind of value there is one that cannot be read back, all without a report. -/
theorem clean_not_wordsDecode :
    let slot := StreamWord.packetSlot 32 32 4 8
    let master := StreamWord.packetMaster (1 <<< 4) (.ofByte 8) false
    (∃ log, truncated.RunsClean noPrograms "." truncated.addressOf? log) ∧
    ¬ truncated.WordsDecode (fun _ _ => True) (fun _ _ => True) truncated.addressOf? ∧
    (∃ x, oversized.describe truncated truncated.addressOf? truncatedTile = (some x, []) ∧
      (DescriptorControl.length.get (x.controlWord none)).toNat + 1 = 1 ∧
      DescriptorPacket.id.get x.packetWord = 0 ∧ DescriptorPacket.kind.get x.packetWord = 0 ∧
      LockAction.acquire.valueField.get x.addressWordA = 0) ∧
    (∃ x, overruled.describe truncated truncated.addressOf? truncatedTile = (some x, []) ∧
      (DescriptorControl.length.get (x.controlWord none)).toNat + 1 = 8192 ∧
      LockAction.acquire.valueField.get x.addressWordA = 0) ∧
    PacketRule.steps truncatedTile (routed 8 4 ⟨32, 32, "to"⟩) 9 0 ⟨32, 32, "to"⟩ =
      [Step.put truncatedTile (slaveOffset 9) (.put StreamWord.packetSlave),
        Step.put truncatedTile (slotOffset 9 0) (.put slot)] ∧
    PacketSlot.id.get slot = 0 ∧ PacketSlot.mask.get slot = 0 ∧ PacketSlot.msel.get slot = 0 ∧
    PacketSlot.arbiter.get slot = 0 ∧
    northSet.steps truncatedTile (routed 8 4 ⟨32, 32, "to"⟩) =
      [Step.put truncatedTile (masterOffset 15) (.put master)] ∧
    master.extractLsb' 0 3 = 0 ∧ master.extractLsb' 3 4 = 1 := by
  intro slot master
  have hv : truncated.issues = [] := by decide +kernel
  have hcore : ∀ x ∈ truncated.tiles, x.core = none := by simp [truncated, valued]
  have hdma : (truncated.dmaSteps truncated.addressOf?).Clean := by decide +kernel
  obtain ⟨-, hrun⟩ : _ ∧ truncated.RunsClean noPrograms "." _ _ :=
    runsClean hv (by decide) hcore (by decide +kernel) hdma
  refine ⟨⟨_, hrun⟩, fun h => ?_, ⟨_, rfl, ?_, ?_, ?_, ?_⟩, ⟨_, rfl, ?_, ?_⟩, rfl, ?_, ?_, ?_, ?_,
    rfl, ?_, ?_⟩
  · obtain ⟨t, ht, hblocks⟩ := h.block _ List.mem_cons_self
    cases ht
    obtain ⟨x, next, hx, -, hdecodes⟩ := hblocks 0 oversized rfl
    cases hx
    have hid := hdecodes.packetId ⟨32, 8⟩ rfl trivial
    exact absurd hid (by decide +kernel)
  all_goals decide +kernel

end Device
end ArrayImage
