import ArrayImage.Proofs.Stepwise
import Mathlib.Data.Finset.Card
import Mathlib.Data.Set.Insert

/-!
# ArrayImage.Proofs.Clearing

Clearing a range of registers, word by word.

To clear is to put zero into one word after the other, so after the last one the range is zero and
all other addresses are as they were (`Cleared`, `perform_zeros`). Nothing else of the window, no
other tile and no other array is touched (`clear_exact`).
-/

namespace ArrayImage

def WriteLog.addresses (log : WriteLog) : Set Nat :=
  {a | (log.get? a).isSome}

/-- `after` is `before` with zero in all words of `t` from `start` up to `stop`. -/
structure Cleared (t : TileId) (start stop : Nat) (before after : WriteLog) : Prop where
  zero : ∀ o, start ≤ o → o < stop → o % 4 = 0 → after.get? (t.address o) = some 0
  others : ∀ a, (∀ o, start ≤ o → o < stop → o % 4 = 0 → a ≠ t.address o) →
    after.get? a = before.get? a

/-- Zero for `n` words from `start` on. -/
def zeros (start n : Nat) : List (Nat × Update) :=
  (List.range n).map fun i => (start + 4 * i, .put 0)

theorem mem_zeros {start n : Nat} {x : Nat × Update} :
    x ∈ zeros start n ↔ ∃ i < n, x = (start + 4 * i, .put 0) := by
  simp only [zeros, List.mem_map, List.mem_range, eq_comm]

namespace Cleared

variable {t : TileId} {start stop : Nat} {before after : WriteLog}

/-- To put zero into one word after the other clears the range of them. -/
theorem of_updated {n : Nat} (h4 : start % 4 = 0) (h : Updated t (zeros start n) before after) :
    Cleared t start (start + 4 * n) before after where
  zero o ho hlt ho4 := by
    obtain ⟨i, rfl⟩ : ∃ i, o = start + 4 * i := ⟨(o - start) / 4, by omega⟩
    exact h.changed (start + 4 * i, .put 0) (mem_zeros.mpr ⟨i, by omega, rfl⟩)
  others a ha := by
    refine h.others a fun x hx => ?_
    obtain ⟨i, hi, rfl⟩ := mem_zeros.mp hx
    exact ha (start + 4 * i) (by omega) (by omega) (by omega)

/-- Other tiles, other places and the places between two words keep what they have. -/
theorem elsewhere (h : Cleared t start stop before after) (hfit : stop ≤ windowSize) {u : TileId}
    {p : Nat} (hp : p < windowSize) (hout : u ≠ t ∨ p < start ∨ stop ≤ p ∨ p % 4 ≠ 0) :
    after.get? (u.address p) = before.get? (u.address p) := by
  refine h.others _ fun o ho hlt ho4 he => ?_
  obtain ⟨rfl, rfl⟩ := (TileId.address_inj hp (Nat.lt_of_lt_of_le hlt hfit)).mp he
  rcases hout with hu | hp | hp | hp
  · exact hu rfl
  · exact Nat.not_lt.mpr ho hp
  · exact Nat.not_lt.mpr hp hlt
  · exact hp ho4

end Cleared

def wordAddresses (t : TileId) (start n : Nat) : Finset Nat :=
  (Finset.range n).image fun i => t.address (start + 4 * i)

theorem card_wordAddresses {t : TileId} {start n : Nat} (h : start + 4 * n ≤ windowSize) :
    (wordAddresses t start n).card = n := by
  rw [wordAddresses, Finset.card_image_of_injOn, Finset.card_range]
  intro i hi j hj he
  have hi := Finset.mem_range.mp hi
  have hj := Finset.mem_range.mp hj
  have := ((TileId.address_inj (by omega) (by omega)).mp he).2
  omega

theorem Cleared.addresses_eq {t : TileId} {start n : Nat} {before after : WriteLog}
    (h : Cleared t start (start + 4 * n) before after) (h4 : start % 4 = 0) :
    after.addresses = before.addresses ∪ wordAddresses t start n := by
  ext a
  simp only [WriteLog.addresses, Set.mem_union, Set.mem_ofPred_eq, wordAddresses, Finset.coe_image,
    Set.mem_image, Finset.mem_coe, Finset.mem_range]
  by_cases ha : ∃ i < n, t.address (start + 4 * i) = a
  · obtain ⟨i, hi, rfl⟩ := ha
    have hzero := h.zero (start + 4 * i) (by omega) (by omega) (by omega)
    simp only [hzero, Option.isSome_some, true_iff]
    exact .inr ⟨i, hi, rfl⟩
  · rw [or_iff_left ha, h.others a]
    rintro o ho hlt ho4 rfl
    exact ha ⟨(o - start) / 4, by omega, by congr 1; omega⟩

namespace Script

variable {t : TileId} {start : Nat}

/-- The loop: after `n` words the range is cleared up to the `n`-th one. -/
theorem perform_zeros (hc : 0 < t.column) (h4 : start % 4 = 0) (p : Progress) {n : Nat}
    (hfit : start + 4 * n ≤ windowSize) :
    ∃ log, perform ((List.range n).map fun i => Step.put t (start + 4 * i) (.put 0)) p =
      .ok ⟨log, p.diagnostics⟩ ∧ Cleared t start (start + 4 * n) p.log log := by
  have hlt : ∀ x ∈ zeros start n, x.1 < windowSize := by
    intro x hx
    obtain ⟨i, hi, rfl⟩ := mem_zeros.mp hx
    exact Nat.lt_of_lt_of_le (by omega) hfit
  have hdiff : (zeros start n).Pairwise fun x y => x.1 ≠ y.1 :=
    List.pairwise_map.mpr (List.pairwise_lt_range.imp fun hij he => by
      have := Nat.add_left_cancel he
      omega)
  obtain ⟨log, hrun, hupd⟩ := perform_puts hc (zeros start n) hlt hdiff p
  rw [zeros, List.map_map] at hrun
  exact ⟨log, hrun, Cleared.of_updated h4 hupd⟩

/-- To clear a range that lies inside the window is possible, puts zero into every word of it and
changes nothing else. Of the addresses in the log, just the words of the range may be new. -/
theorem clear_exact {length : Nat} (hc : 0 < t.column) (hstart : start % 4 = 0)
    (hlength : length % 4 = 0) (hfit : start + length ≤ windowSize) (p : Progress) :
    ∃ log, (clear t start length).perform p = .ok ⟨log, p.diagnostics⟩ ∧
      (∀ o, start ≤ o → o < start + length → o % 4 = 0 → log.get? (t.address o) = some 0) ∧
      (∀ a, (∀ o, start ≤ o → o < start + length → o % 4 = 0 → a ≠ t.address o) →
        log.get? a = p.log.get? a) ∧
      (∀ (u : TileId), ∀ o < windowSize, u ≠ t ∨ o < start ∨ start + length ≤ o ∨ o % 4 ≠ 0 →
        log.get? (u.address o) = p.log.get? (u.address o)) ∧
      log.addresses = p.log.addresses ∪ wordAddresses t start (length / 4) ∧
      (wordAddresses t start (length / 4)).card = length / 4 := by
  obtain ⟨n, rfl⟩ : ∃ n, length = 4 * n := ⟨length / 4, by omega⟩
  have hsteps : clear t start (4 * n) =
      (List.range n).map fun i => Step.put t (start + 4 * i) (.put 0) := by
    have hadd : checkedAdd 32 start (4 * n) = .ok (start + 4 * n) :=
      if_pos (Nat.lt_of_le_of_lt hfit (by decide))
    have hmin : min (4 * n / 4) (windowSize / 4 + 1) = n := by
      rw [windowSize_eq] at hfit ⊢
      omega
    simp only [clear, hstart, hlength, ne_eq, not_true_eq_false, if_false, hadd, hmin]
  obtain ⟨log, hrun, hcleared⟩ := perform_zeros hc hstart p hfit
  rw [Nat.mul_div_cancel_left n (by decide)]
  exact ⟨log, hsteps ▸ hrun, hcleared.zero, hcleared.others,
    fun u o ho => hcleared.elsewhere hfit ho, hcleared.addresses_eq hstart,
    card_wordAddresses hfit⟩

def lastTile : TileId where
  array := 0x3FFFFFFFF
  column := 127
  row := 31
  array_lt := Nat.le_of_ble_eq_true rfl
  column_lt := Nat.le_of_ble_eq_true rfl
  row_lt := Nat.le_of_ble_eq_true rfl

def lastTileButOne : TileId where
  array := 0x3FFFFFFFF
  column := 127
  row := 30
  array_lt := Nat.le_of_ble_eq_true rfl
  column_lt := Nat.le_of_ble_eq_true rfl
  row_lt := Nat.le_of_ble_eq_true rfl

/-- Words in the last range of a window, between two of its words, before it and in another tile. -/
def windowEnd : WriteLog :=
  WriteLog.empty.applyAll
    [⟨⟨lastTile, 0x3FFFC, by decide⟩, .put 1, by decide⟩,
      ⟨⟨lastTile, 0x3FFFE, by decide⟩, .put 2, by decide⟩,
      ⟨⟨lastTile, 0x3FFF4, by decide⟩, .put 3, by decide⟩,
      ⟨⟨lastTileButOne, 0x3FFFC, by decide⟩, .put 4, by decide⟩]

theorem windowEnd_cleared : 0 < lastTile.column ∧ 0x3FFF8 % 4 = 0 ∧ 8 % 4 = 0 ∧
    0x3FFF8 + 8 ≤ windowSize ∧
    ∃ log, (clear lastTile 0x3FFF8 8).perform (.start windowEnd) = .ok ⟨log, []⟩ ∧
      log.get? (lastTile.address 0x3FFF8) = some 0 ∧
      log.get? (lastTile.address 0x3FFFC) = some 0 ∧
      log.get? (lastTile.address 0x3FFFE) = some 2 ∧
      log.get? (lastTile.address 0x3FFF4) = some 3 ∧
      log.get? (lastTileButOne.address 0x3FFFC) = some 4 ∧
      log.addresses = windowEnd.addresses ∪ wordAddresses lastTile 0x3FFF8 2 ∧
      (wordAddresses lastTile 0x3FFF8 2).card = 2 := by
  have hc : 0 < lastTile.column := by decide
  have hfit : 0x3FFF8 + 8 ≤ windowSize := by decide
  obtain ⟨log, hrun, hzero, -, helse, haddr, hcard⟩ :=
    clear_exact hc (by decide) (by decide) hfit (.start windowEnd)
  have hbefore : windowEnd.get? (lastTile.address 0x3FFFE) = some 2 ∧
      windowEnd.get? (lastTile.address 0x3FFF4) = some 3 ∧
      windowEnd.get? (lastTileButOne.address 0x3FFFC) = some 4 := by
    simp only [windowEnd, WriteLog.get?_applyAll]
    exact ⟨by rfl, by rfl, by rfl⟩
  refine ⟨hc, by decide, by decide, hfit, log, hrun, ?_, ?_, ?_, ?_, ?_, haddr, hcard⟩
  · exact hzero 0x3FFF8 (by decide) (by decide) (by decide)
  · exact hzero 0x3FFFC (by decide) (by decide) (by decide)
  · exact (helse lastTile 0x3FFFE (by decide) (by decide)).trans hbefore.1
  · exact (helse lastTile 0x3FFF4 (by decide) (by decide)).trans hbefore.2.1
  · exact (helse lastTileButOne 0x3FFFC (by decide) (by decide)).trans hbefore.2.2

end Script
end ArrayImage
