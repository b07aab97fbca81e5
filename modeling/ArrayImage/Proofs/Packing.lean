import ArrayImage.Proofs.WriteLog
import Mathlib.Algebra.Group.Nat.Defs

/-!
# ArrayImage.Proofs.Packing

Addresses and registers are in the same order.

An address is a number with four digits of different sizes: array, column, row and offset. Numbers
compare as their digits do, the highest first (`compare_mul_add`), so addresses compare as registers
(`compare_address`), and the words of a log are in the order of tiles and then of offsets.

* `address_eq_or`, `ofAddress_eq_and`: the digits stand side by side in the bits of an address, so
  that shifts and masks put them together and take them apart.
* `packing_ordered`: packing and unpacking are inverse to each other and keep the order.
-/

namespace ArrayImage

/-! ## Digits -/

/-- Numbers compare as their upper digits, or as their lowest ones when the upper ones agree. -/
theorem compare_mul_add {n q q' r r' : Nat} (h : r < n) (h' : r' < n) :
    compare (q * n + r) (q' * n + r') = (compare q q').then (compare r r') := by
  -- a larger upper digit outweighs any lowest digit
  have hlt : ∀ {a b c d : Nat}, c < n → a < b → a * n + c < b * n + d := by
    intro a b c d hc hab
    calc a * n + c < (a + 1) * n := by rw [Nat.succ_mul]; omega
      _ ≤ b * n := Nat.mul_le_mul_right n hab
      _ ≤ b * n + d := Nat.le_add_right _ _
  rcases Nat.lt_trichotomy q q' with hq | rfl | hq
  · rw [Nat.compare_eq_lt.mpr hq, Nat.compare_eq_lt.mpr (hlt h hq)]
    rfl
  · rw [Nat.compare_eq_eq.mpr rfl, Ordering.then]
    rcases Nat.lt_trichotomy r r' with hr | rfl | hr
    · rw [Nat.compare_eq_lt.mpr hr, Nat.compare_eq_lt.mpr (by omega)]
    · rw [Nat.compare_eq_eq.mpr rfl, Nat.compare_eq_eq.mpr rfl]
    · rw [Nat.compare_eq_gt.mpr hr, Nat.compare_eq_gt.mpr (by omega)]
  · rw [Nat.compare_eq_gt.mpr hq, Nat.compare_eq_gt.mpr (hlt h' hq)]
    rfl

/-- A shifted number leaves room for a lower digit. -/
theorem shiftLeft_or {i r : Nat} (h : r < 2 ^ i) (q : Nat) : q <<< i ||| r = q * 2 ^ i + r := by
  rw [← Nat.shiftLeft_add_eq_or_of_lt h, Nat.shiftLeft_eq]

namespace TileId

/-- The order of tiles: by array, then column, then row. -/
instance : Ord TileId where
  compare s t :=
    (compare s.array t.array).then ((compare s.column t.column).then (compare s.row t.row))

theorem compare_def (s t : TileId) : compare s t =
    (compare s.array t.array).then ((compare s.column t.column).then (compare s.row t.row)) :=
  rfl

theorem address_eq_digits (t : TileId) (o : Nat) :
    t.address o = ((t.array * 0x80 + t.column) * 0x20 + t.row) * windowSize + o % windowSize := by
  rw [address, windowSize_eq]
  omega

theorem address_lt (t : TileId) (o : Nat) : t.address o < 2 ^ 64 := by
  have ha := t.array_lt
  have hc := t.column_lt
  have hr := t.row_lt
  rw [address, windowSize_eq]
  omega

theorem compare_address (s t : TileId) {o p : Nat} (ho : o < windowSize) (hp : p < windowSize) :
    compare (s.address o) (t.address p) = (compare s t).then (compare o p) := by
  rw [address_eq_digits, address_eq_digits, Nat.mod_eq_of_lt ho, Nat.mod_eq_of_lt hp,
    compare_mul_add ho hp, compare_mul_add s.row_lt t.row_lt,
    compare_mul_add s.column_lt t.column_lt, compare_def,
    Ordering.then_assoc _ (compare s.column _)]

/-! ## Bits -/

/-- Shifted into their places, the parts of an address do not overlap. -/
theorem address_eq_or (t : TileId) (o : Nat) :
    t.address o = t.array <<< 30 ||| t.column <<< 23 ||| t.row <<< 18 ||| (o &&& 0x3FFFF) := by
  have hc := t.column_lt
  have hr := t.row_lt
  have hoffset : o &&& 0x3FFFF = o % 2 ^ 18 := Nat.and_two_pow_sub_one_eq_mod o 18
  have ho : o % 2 ^ 18 < 2 ^ 18 := Nat.mod_lt _ (by decide)
  rw [hoffset, Nat.or_assoc, Nat.or_assoc, shiftLeft_or ho t.row,
    shiftLeft_or (by omega) t.column, shiftLeft_or (by omega) t.array, address, windowSize_eq]
  omega

/-- Column and row are taken from the low byte behind them. -/
theorem ofAddress_eq_and (a : Nat) :
    (ofAddress a).array = a >>> 30 &&& 0x3FFFFFFFF ∧
      (ofAddress a).column = a >>> 23 % 0x100 &&& 0x7F ∧
      (ofAddress a).row = a >>> 18 % 0x100 &&& 0x1F := by
  refine ⟨?_, ?_, ?_⟩
  · rw [Nat.shiftRight_eq_div_pow]
    exact (Nat.and_two_pow_sub_one_eq_mod _ 34).symm
  · rw [Nat.shiftRight_eq_div_pow, Nat.and_two_pow_sub_one_eq_mod _ 7]
    exact (Nat.mod_mod_of_dvd _ (by decide)).symm
  · rw [Nat.shiftRight_eq_div_pow, Nat.and_two_pow_sub_one_eq_mod _ 5]
    exact (Nat.mod_mod_of_dvd _ (by decide)).symm

end TileId

namespace Register

/-- The order of registers: by tile, then offset. -/
instance : Ord Register where
  compare r s := (compare r.tile s.tile).then (compare r.offset s.offset)

theorem compare_address (r s : Register) : compare r.address s.address = compare r s :=
  r.tile.compare_address s.tile r.offset_lt s.offset_lt

/-- Every address of 64 bits is that of its register. -/
theorem address_ofAddress {a : Nat} (ha : a < 2 ^ 64) : (ofAddress a).address = a := by
  show a / 0x40000000 % 0x400000000 * 0x40000000 + a / 0x800000 % 0x80 * 0x800000 +
    a / 0x40000 % 0x20 * 0x40000 + a % windowSize % windowSize = a
  rw [windowSize_eq]
  omega

theorem compare_ofAddress {a b : Nat} (ha : a < 2 ^ 64) (hb : b < 2 ^ 64) :
    compare (ofAddress a) (ofAddress b) = compare a b := by
  rw [← compare_address, address_ofAddress ha, address_ofAddress hb]

/-- The words of a log are in the order of their registers. -/
theorem entries_ordered {log : WriteLog} (h : ∀ a, (log.get? a).isSome → a < 2 ^ 64) :
    log.entries.Pairwise fun x y => compare (ofAddress x.1) (ofAddress y.1) = .lt := by
  have hlt : ∀ e ∈ log.entries, e.1 < 2 ^ 64 := fun e he =>
    h e.1 (Option.isSome_of_mem (WriteLog.mem_entries_iff.mp he))
  refine List.Pairwise.imp_of_mem ?_ log.entries_ascending
  intro x y hx hy hxy
  rw [compare_ofAddress (hlt x hx) (hlt y hy)]
  exact Nat.compare_eq_lt.mpr hxy

/-- Packing keeps the tile and the bits of an offset inside the window, unpacking loses nothing of
an address, and the order of addresses, and so that of the words of a log, is the order of arrays,
columns, rows and offsets. -/
theorem packing_ordered :
    (∀ (t : TileId) (o : Nat),
      t.address o = t.array <<< 30 ||| t.column <<< 23 ||| t.row <<< 18 ||| (o &&& 0x3FFFF) ∧
        t.address o < 2 ^ 64 ∧ (ofAddress (t.address o)).tile = t ∧
        (ofAddress (t.address o)).offset = o % 2 ^ 18) ∧
      (∀ a < 2 ^ 64,
        (ofAddress a).tile.array = a >>> 30 &&& 0x3FFFFFFFF ∧
        (ofAddress a).tile.column = a >>> 23 % 0x100 &&& 0x7F ∧
        (ofAddress a).tile.row = a >>> 18 % 0x100 &&& 0x1F ∧
        (ofAddress a).offset = a &&& 0x3FFFF ∧ (ofAddress a).offset < 2 ^ 18 ∧
        (ofAddress a).tile.address (ofAddress a).offset = a) ∧
      (∀ (s t : TileId) (o p : Nat), o < 2 ^ 18 → p < 2 ^ 18 →
        compare (s.address o) (t.address p) =
          (compare s.array t.array).then ((compare s.column t.column).then
            ((compare s.row t.row).then (compare o p))) ∧
        (s.address o = t.address p ↔ s = t ∧ o = p)) ∧
      ∀ log : WriteLog, (∀ a, (log.get? a).isSome → a < 2 ^ 64) →
        log.entries.Pairwise fun x y => compare (ofAddress x.1) (ofAddress y.1) = .lt := by
  refine ⟨?_, ?_, ?_, fun log h => entries_ordered h⟩
  · intro t o
    exact ⟨t.address_eq_or o, t.address_lt o, t.ofAddress_address o, t.address_mod o⟩
  · intro a ha
    obtain ⟨harray, hcolumn, hrow⟩ := TileId.ofAddress_eq_and a
    exact ⟨harray, hcolumn, hrow, (Nat.and_two_pow_sub_one_eq_mod a 18).symm,
      (ofAddress a).offset_lt, address_ofAddress ha⟩
  · intro s t o p ho hp
    rw [s.compare_address t ho hp, TileId.compare_def, Ordering.then_assoc, Ordering.then_assoc]
    exact ⟨rfl, TileId.address_inj ho hp⟩

def firstTile : TileId where
  array := 0
  column := 1
  row := 0
  array_lt := Nat.le_of_ble_eq_true rfl
  column_lt := Nat.le_of_ble_eq_true rfl
  row_lt := Nat.le_of_ble_eq_true rfl

def remoteTile : TileId where
  array := 5
  column := 45
  row := 7
  array_lt := Nat.le_of_ble_eq_true rfl
  column_lt := Nat.le_of_ble_eq_true rfl
  row_lt := Nat.le_of_ble_eq_true rfl

def scatteredWrites : List Write :=
  [⟨⟨remoteTile, 0x3F104, Nat.le_of_ble_eq_true rfl⟩, .put 1, Nat.le_of_ble_eq_true rfl⟩,
    ⟨⟨firstTile, 0, Nat.le_of_ble_eq_true rfl⟩, .put 2, Nat.le_of_ble_eq_true rfl⟩]

theorem scatteredWrites_ordered :
    (0xFFFFFFFFFFFFFFFF < 2 ^ 64 ∧
      (ofAddress 0xFFFFFFFFFFFFFFFF).tile.address (ofAddress 0xFFFFFFFFFFFFFFFF).offset =
        0xFFFFFFFFFFFFFFFF) ∧
    (0 < 2 ^ 18 ∧ 0x3FFFF < 2 ^ 18 ∧
      compare (remoteTile.address 0) (firstTile.address 0x3FFFF) = .gt) ∧
    (∀ a, ((WriteLog.empty.applyAll scatteredWrites).get? a).isSome → a < 2 ^ 64) ∧
      (WriteLog.empty.applyAll scatteredWrites).entries.map Prod.fst =
        [0x800000, 0x1569FF104] ∧
      (WriteLog.empty.applyAll scatteredWrites).entries.Pairwise fun x y =>
        compare (ofAddress x.1) (ofAddress y.1) = .lt := by
  obtain ⟨-, hunpack, hcompare, hlog⟩ := packing_ordered
  have hwritten : ∀ a, ((WriteLog.empty.applyAll scatteredWrites).get? a).isSome → a < 2 ^ 64 := by
    intro a ha
    rw [WriteLog.isSome_get?_applyAll] at ha
    rcases ha with ha | ⟨w, -, rfl⟩
    · simp at ha
    · exact TileId.address_lt _ _
  refine ⟨⟨by decide, ?_⟩, ⟨by decide, by decide, ?_⟩, hwritten, by decide +kernel, hlog _ hwritten⟩
  · exact (hunpack 0xFFFFFFFFFFFFFFFF (by decide)).2.2.2.2.2
  · exact (hcompare _ _ 0 0x3FFFF (by decide) (by decide)).1

end Register
end ArrayImage
