import ArrayImage.BitField

/-!
# ArrayImage.Proofs.BitField

Reading fields of words that are put together with `|||`. A field gives back the value that was
set, cut to its width (`get_set_self`), and nothing of what other fields hold
(`get_set_of_disjoint`); both are read off the bits (`getLsbD_set`).
-/

namespace ArrayImage
namespace BitField

theorem getLsbD_valueMask (f : BitField) (i : Nat) :
    f.valueMask.getLsbD i = decide (i < f.width) := by
  have hw : f.width ≤ 32 := by
    have := f.high_lt
    unfold width
    omega
  rw [valueMask, BitVec.getLsbD_ofNat, Nat.one_shiftLeft, Nat.testBit_two_pow_sub_one]
  by_cases hi : i < f.width
  · simp [hi, Nat.lt_of_lt_of_le hi hw]
  · simp [hi]

theorem getLsbD_mask (f : BitField) (i : Nat) :
    f.mask.getLsbD i = (decide (f.low ≤ i) && decide (i ≤ f.high)) := by
  have hl := f.low_le_high
  have hh := f.high_lt
  rw [mask, BitVec.getLsbD_shiftLeft, getLsbD_valueMask, width, Bool.eq_iff_iff]
  simp only [Bool.and_eq_true, decide_eq_true_eq, Bool.not_eq_true', decide_eq_false_iff_not]
  omega

theorem getLsbD_set (f : BitField) (v : Word) (i : Nat) :
    (f.set v).getLsbD i =
      (decide (f.low ≤ i) && decide (i ≤ f.high) && v.getLsbD (i - f.low)) := by
  have hh := f.high_lt
  rw [set, BitVec.getLsbD_and, getLsbD_mask, BitVec.getLsbD_shiftLeft, Bool.eq_iff_iff]
  simp only [Bool.and_eq_true, decide_eq_true_eq, Bool.not_eq_true', decide_eq_false_iff_not]
  constructor
  · rintro ⟨⟨-, hv⟩, hl, hi⟩
    exact ⟨⟨hl, hi⟩, hv⟩
  · rintro ⟨⟨hl, hi⟩, hv⟩
    exact ⟨⟨⟨by omega, by omega⟩, hv⟩, hl, hi⟩

/-- A value is cut to the width of the field before it is moved there. -/
theorem set_eq (f : BitField) (v : Word) : f.set v = (v &&& f.valueMask) <<< f.low := by
  have hl := f.low_le_high
  have hh := f.high_lt
  apply BitVec.eq_of_getLsbD_eq
  intro i hi
  rw [getLsbD_set, BitVec.getLsbD_shiftLeft, BitVec.getLsbD_and, getLsbD_valueMask, width,
    Bool.eq_iff_iff]
  simp only [Bool.and_eq_true, decide_eq_true_eq, Bool.not_eq_true', decide_eq_false_iff_not]
  constructor
  · rintro ⟨⟨hf, hf'⟩, hv⟩
    exact ⟨⟨hi, by omega⟩, hv, by omega⟩
  · rintro ⟨⟨-, hf⟩, hv, hw⟩
    exact ⟨⟨by omega, by omega⟩, hv⟩

theorem getLsbD_get (f : BitField) (w : Word) (i : Nat) :
    (f.get w).getLsbD i = (decide (i < f.width) && w.getLsbD (f.low + i)) := by
  have hl := f.low_le_high
  rw [get, BitVec.getLsbD_ushiftRight, BitVec.getLsbD_and, getLsbD_mask, width, Bool.eq_iff_iff]
  simp only [Bool.and_eq_true, decide_eq_true_eq]
  constructor
  · rintro ⟨hw, -, hi⟩
    exact ⟨by omega, hw⟩
  · rintro ⟨hi, hw⟩
    exact ⟨hw, by omega, by omega⟩

@[simp] theorem get_or (f : BitField) (x y : Word) : f.get (x ||| y) = f.get x ||| f.get y := by
  apply BitVec.eq_of_getLsbD_eq
  intro i _
  rw [BitVec.getLsbD_or, getLsbD_get, getLsbD_get, getLsbD_get, BitVec.getLsbD_or,
    Bool.and_or_distrib_left]

@[simp] theorem get_zero (f : BitField) : f.get 0 = 0 := by
  simp [get]

theorem get_set_self (f : BitField) (v : Word) : f.get (f.set v) = v &&& f.valueMask := by
  have hl := f.low_le_high
  apply BitVec.eq_of_getLsbD_eq
  intro i _
  rw [getLsbD_get, getLsbD_set, BitVec.getLsbD_and, getLsbD_valueMask, Nat.add_sub_cancel_left,
    width, Bool.eq_iff_iff]
  simp only [Bool.and_eq_true, decide_eq_true_eq]
  constructor
  · rintro ⟨hi, -, hv⟩
    exact ⟨hv, hi⟩
  · rintro ⟨hv, hi⟩
    exact ⟨hi, by omega, hv⟩

theorem get_set_of_disjoint {f g : BitField} (h : f.high < g.low ∨ g.high < f.low) (v : Word) :
    f.get (g.set v) = 0 := by
  have hl := f.low_le_high
  apply BitVec.eq_of_getLsbD_eq
  intro i _
  have h0 : (0 : Word).getLsbD i = false := BitVec.getLsbD_zero
  rw [getLsbD_get, getLsbD_set, h0, Bool.eq_false_iff]
  simp only [ne_eq, Bool.and_eq_true, decide_eq_true_eq]
  rintro ⟨hi, ⟨hg, hg'⟩, -⟩
  unfold width at hi
  omega

/-- Of a number that is set, what the field has bits for can be read back. -/
theorem toNat_get_set_mod (f : BitField) (n : Nat) :
    (f.get (f.set (.ofNat n))).toNat = n % (1 <<< f.width) := by
  have hw : f.width ≤ 32 := by
    have := f.high_lt
    unfold width
    omega
  apply Nat.eq_of_testBit_eq
  intro i
  rw [BitVec.testBit_toNat, get_set_self, BitVec.getLsbD_and, getLsbD_valueMask,
    BitVec.getLsbD_ofNat, Nat.one_shiftLeft, Nat.testBit_mod_two_pow]
  by_cases hi : i < f.width
  · simp [hi, Nat.lt_of_lt_of_le hi hw]
  · simp [hi]

theorem flag_eq_set (f : BitField) (on : Bool) : f.flag on = f.set (.ofNat on.toNat) := by
  cases on <;> rfl

end BitField
end ArrayImage
