import ArrayImage.Proofs.BitField
import ArrayImage.RegisterMap
import Mathlib.Algebra.Group.Nat.Defs

/-!
# ArrayImage.Proofs.Combination

Words that are put together from any number of fields.

A value is shifted before it is masked, so its high bits are lost in the shift for fields at the top
of the word and in the mask for all others. In both cases what stays is the value modulo the size of
the field (`toNat_set`). `combine` is the word of a list of fields with their values; when the
fields are apart, each of them reads back its own value, whatever the others hold and in whichever
order they are set (`fields_independent`).
-/

namespace ArrayImage
namespace BitField

/-! ## One field -/

theorem width_le (f : BitField) : f.width ≤ 32 - f.low := by
  have hl := f.low_le_high
  have hh := f.high_lt
  unfold width
  omega

theorem toNat_valueMask (f : BitField) : f.valueMask.toNat = 2 ^ f.width - 1 := by
  have hw : f.width ≤ 32 := Nat.le_trans f.width_le (Nat.sub_le _ _)
  have hle : 2 ^ f.width ≤ 2 ^ 32 := Nat.pow_le_pow_right (by decide) hw
  have hpos : 0 < 2 ^ f.width := Nat.two_pow_pos _
  rw [valueMask, BitVec.toNat_ofNat, Nat.one_shiftLeft, Nat.mod_eq_of_lt (by omega)]

/-- The mask of the values cuts to the size of the field. -/
theorem toNat_and_valueMask (f : BitField) (v : Word) :
    (v &&& f.valueMask).toNat = v.toNat % 2 ^ f.width := by
  rw [BitVec.toNat_and, toNat_valueMask, Nat.and_two_pow_sub_one_eq_mod]

theorem toNat_set (f : BitField) (v : Word) :
    (f.set v).toNat = v.toNat % 2 ^ f.width * 2 ^ f.low := by
  have hlow : f.low ≤ 32 := by
    have := f.low_le_high
    have := f.high_lt
    omega
  -- the cut value does not reach the top of the word when it is shifted
  have hfits : v.toNat % 2 ^ f.width * 2 ^ f.low < 2 ^ 32 := calc
    v.toNat % 2 ^ f.width * 2 ^ f.low < 2 ^ f.width * 2 ^ f.low :=
      Nat.mul_lt_mul_of_pos_right (Nat.mod_lt _ (Nat.two_pow_pos _)) (Nat.two_pow_pos _)
    _ ≤ 2 ^ (32 - f.low) * 2 ^ f.low :=
      Nat.mul_le_mul_right _ (Nat.pow_le_pow_right (by decide) f.width_le)
    _ = 2 ^ 32 := by rw [← Nat.pow_add, Nat.sub_add_cancel hlow]
  rw [set_eq, BitVec.toNat_shiftLeft, toNat_and_valueMask, Nat.shiftLeft_eq, Nat.mod_eq_of_lt hfits]

/-- No bit outside the field is set. -/
theorem set_and_not_mask (f : BitField) (v : Word) : f.set v &&& ~~~f.mask = 0 := by
  rw [set, BitVec.and_assoc, BitVec.and_not_self]
  exact BitVec.and_zero

/-! ## Several fields -/

/-- The fields have no bit in common. -/
def Apart (f g : BitField) : Prop :=
  f.high < g.low ∨ g.high < f.low

/-- The word of some fields and the values that are set in them. -/
def combine (parts : List (BitField × Word)) : Word :=
  (parts.map fun p => p.1.set p.2).foldr (· ||| ·) 0

@[simp] theorem combine_nil : combine [] = 0 := rfl

@[simp] theorem combine_cons (p : BitField × Word) (parts : List (BitField × Word)) :
    combine (p :: parts) = p.1.set p.2 ||| combine parts := rfl

theorem getLsbD_combine (parts : List (BitField × Word)) (i : Nat) :
    (combine parts).getLsbD i = parts.any fun p => (p.1.set p.2).getLsbD i := by
  induction parts with
  | nil => exact BitVec.getLsbD_zero
  | cons p parts ih => rw [combine_cons, BitVec.getLsbD_or, ih, List.any_cons]

/-- The order in which fields are set does not matter. -/
theorem combine_perm {parts parts' : List (BitField × Word)} (h : parts.Perm parts') :
    combine parts = combine parts' := by
  apply BitVec.eq_of_getLsbD_eq
  intro i _
  rw [getLsbD_combine, getLsbD_combine, h.any_eq]

theorem get_combine_of_apart {f : BitField} {parts : List (BitField × Word)}
    (h : ∀ p ∈ parts, Apart f p.1) : f.get (combine parts) = 0 := by
  induction parts with
  | nil => exact get_zero f
  | cons p parts ih =>
    obtain ⟨hp, hparts⟩ := List.forall_mem_cons.mp h
    rw [combine_cons, get_or, get_set_of_disjoint hp, ih hparts]
    exact BitVec.or_zero

/-- Every field of a word gives back its value, cut to its size. -/
theorem get_combine {parts : List (BitField × Word)}
    (h : parts.Pairwise fun p q => Apart p.1 q.1) {p : BitField × Word} (hp : p ∈ parts) :
    p.1.get (combine parts) = p.2 &&& p.1.valueMask := by
  induction parts with
  | nil => cases hp
  | cons q parts ih =>
    obtain ⟨hq, hparts⟩ := List.pairwise_cons.mp h
    rw [combine_cons, get_or]
    rcases List.mem_cons.mp hp with rfl | hp
    · rw [get_set_self, get_combine_of_apart hq]
      exact BitVec.or_zero
    · rw [get_set_of_disjoint (hq p hp).symm, ih hparts hp]
      exact BitVec.zero_or

/-- Setting a field keeps the value modulo the size of the field and touches nothing else, and
fields that are apart are read back independently of each other and of their order. -/
theorem fields_independent (f : BitField) (v : Word) :
    (f.set v).toNat = v.toNat % 2 ^ (f.high - f.low + 1) * 2 ^ f.low ∧
      f.set v &&& ~~~f.mask = 0 ∧
      (f.set v &&& f.mask) >>> f.low = v &&& f.valueMask ∧
      ∀ parts : List (BitField × Word), parts.Pairwise (fun p q => Apart p.1 q.1) →
        ∀ parts', parts.Perm parts' → ∀ p ∈ parts,
          p.1.get (combine parts') = p.2 &&& p.1.valueMask ∧
          (p.1.get (combine parts')).toNat = p.2.toNat % 2 ^ (p.1.high - p.1.low + 1) := by
  refine ⟨f.toNat_set v, f.set_and_not_mask v, f.get_set_self v, ?_⟩
  intro parts hparts parts' hperm p hp
  have hget : p.1.get (combine parts') = p.2 &&& p.1.valueMask := by
    rw [← combine_perm hperm]
    exact get_combine hparts hp
  refine ⟨hget, ?_⟩
  rw [hget]
  exact p.1.toNat_and_valueMask p.2

open RegisterMap in
def crowdedSlot : List (BitField × Word) :=
  [(PacketSlot.id, 0xFF), (PacketSlot.mask, 0xFE), (PacketSlot.enable, 3)]

open RegisterMap in
theorem crowdedSlot_independent :
    crowdedSlot.Pairwise (fun p q => Apart p.1 q.1) ∧ crowdedSlot.Perm crowdedSlot.reverse ∧
      (PacketSlot.mask, (0xFE : Word)) ∈ crowdedSlot ∧
      combine crowdedSlot = 0x1F1E0100 ∧
      PacketSlot.mask.get (combine crowdedSlot.reverse) = 0x1E ∧
      (PacketSlot.mask.get (combine crowdedSlot.reverse)).toNat = 0xFE % 2 ^ 5 := by
  have hapart : crowdedSlot.Pairwise fun p q => Apart p.1 q.1 := by
    simp [crowdedSlot, Apart, PacketSlot.id, PacketSlot.mask, PacketSlot.enable, bit]
  have hperm : crowdedSlot.Perm crowdedSlot.reverse := (List.reverse_perm _).symm
  have hmem : (PacketSlot.mask, (0xFE : Word)) ∈ crowdedSlot := by simp [crowdedSlot]
  obtain ⟨-, -, -, hfields⟩ := fields_independent PacketSlot.mask 0xFE
  obtain ⟨hget, hnat⟩ := hfields _ hapart _ hperm _ hmem
  exact ⟨hapart, hperm, hmem, by decide, hget.trans (by decide), hnat⟩

end BitField
end ArrayImage
