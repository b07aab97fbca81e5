import ArrayImage.Program.Image

/-!
# ArrayImage.Proofs.Bytes

Numbers and words read back from their bytes.

A number that fits its bytes is read back from them (`natOfBytes_bytesOfNat`), and what is read at a
place of two joined lists is read from the one that has the place. Words are read back from the
bytes of the words (`wordsOfBytes_flatMap`).
-/

namespace ArrayImage

@[simp] theorem length_bytesOfNat (count n : Nat) : (bytesOfNat count n).length = count := by
  induction count generalizing n with
  | zero => rfl
  | succ count ih => rw [bytesOfNat, List.length_cons, ih]

theorem natOfBytes_bytesOfNat {count n : Nat} (h : n < 1 <<< (8 * count)) :
    natOfBytes (bytesOfNat count n) = n := by
  induction count generalizing n with
  | zero =>
    rw [Nat.mul_zero, Nat.shiftLeft_zero, Nat.lt_one_iff] at h
    rw [h]
    rfl
  | succ count ih =>
    have hrest : n / 256 < 1 <<< (8 * count) := by
      rw [Nat.mul_succ, Nat.shiftLeft_add, Nat.shiftLeft_eq _ 8] at h
      exact (Nat.div_lt_iff_lt_mul (by decide)).mpr h
    have hlow : (UInt8.ofNat (n % 256)).toNat = n % 256 :=
      UInt8.toNat_ofNat_of_lt' (Nat.mod_lt _ (by decide))
    rw [bytesOfNat, natOfBytes, ih hrest, hlow, Nat.mod_add_div]

theorem natOfBytes_lt (bytes : List UInt8) : natOfBytes bytes < 1 <<< (8 * bytes.length) := by
  induction bytes with
  | nil => decide
  | cons b rest ih =>
    have hb := b.toNat_lt
    rw [List.length_cons, Nat.mul_succ, Nat.shiftLeft_add, Nat.shiftLeft_eq _ 8, natOfBytes]
    omega

theorem natAt_lt (bytes : List UInt8) (place count : Nat) :
    natAt bytes place count < 1 <<< (8 * count) := by
  have hlen : ((bytes.drop place).take count).length ≤ count := List.length_take_le _ _
  refine Nat.lt_of_lt_of_le (natOfBytes_lt _) ?_
  rw [Nat.one_shiftLeft, Nat.one_shiftLeft]
  exact Nat.pow_le_pow_right (by decide) (Nat.mul_le_mul_left 8 hlen)

/-! ## Places in joined lists -/

theorem natAt_append_right {xs ys : List UInt8} {place count : Nat} (h : xs.length ≤ place) :
    natAt (xs ++ ys) place count = natAt ys (place - xs.length) count := by
  rw [natAt, List.drop_append, List.drop_of_length_le h, List.nil_append, ← natAt]

/-- The number that stands at the start. -/
theorem natAt_bytesOfNat {count n : Nat} (rest : List UInt8) (h : n < 1 <<< (8 * count)) :
    natAt (bytesOfNat count n ++ rest) 0 count = n := by
  rw [natAt, List.drop_zero, List.take_left' (length_bytesOfNat count n), natOfBytes_bytesOfNat h]

/-! ## Words -/

theorem length_flatMap_bytesOfNat (words : List Word) :
    (words.flatMap fun word => bytesOfNat 4 word.toNat).length = 4 * words.length := by
  rw [List.length_flatMap]
  simp only [length_bytesOfNat, List.map_const', List.sum_replicate_nat]
  rw [Nat.mul_comm]

theorem wordsOfBytes_append (word : Word) (rest : List UInt8) :
    wordsOfBytes (bytesOfNat 4 word.toNat ++ rest) = word :: wordsOfBytes rest := by
  have hword := natOfBytes_bytesOfNat (show word.toNat < 1 <<< (8 * 4) from word.isLt)
  simp only [bytesOfNat] at hword
  simp only [bytesOfNat, List.cons_append, List.nil_append, wordsOfBytes, wordOfBytes, hword,
    BitVec.ofNat_toNat, BitVec.setWidth_eq]

theorem wordsOfBytes_flatMap (words : List Word) :
    wordsOfBytes (words.flatMap fun word => bytesOfNat 4 word.toNat) = words := by
  induction words with
  | nil => rfl
  | cons word rest ih => rw [List.flatMap_cons, wordsOfBytes_append, ih]

end ArrayImage
