import ArrayImage.TileId

/-!
# ArrayImage.Proofs.Address

Packing and unpacking of addresses. `ofAddress_address` takes a packed address apart again, and
`address_inj` says that two registers never share an address, so what is written to one register
is never read from another.
-/

namespace ArrayImage

theorem windowSize_eq : windowSize = 0x40000 := rfl

namespace TileId

theorem at?_eq_ok {a c r : Nat} {t : TileId} (h : at? a c r = .ok t) :
    t.array = a ∧ t.column = c ∧ t.row = r := by
  simp only [at?] at h
  split at h
  · split at h
    · split at h
      · cases h; exact ⟨rfl, rfl, rfl⟩
      · cases h
    · cases h
  · cases h

theorem at?_self (t : TileId) : at? t.array t.column t.row = .ok t := by
  simp [at?, t.column_lt, t.row_lt, t.array_lt]

theorem at?_eq_ok_iff {a c r : Nat} {t : TileId} :
    at? a c r = .ok t ↔ a = t.array ∧ c = t.column ∧ r = t.row := by
  constructor
  · intro h
    obtain ⟨ha, hc, hr⟩ := at?_eq_ok h
    exact ⟨ha.symm, hc.symm, hr.symm⟩
  · rintro ⟨rfl, rfl, rfl⟩
    exact at?_self t

def isAt (t : TileId) (array column row : Nat) : Bool :=
  t.array == array && t.column == column && t.row == row

theorem isAt_iff {t : TileId} {a c r : Nat} : t.isAt a c r = true ↔ at? a c r = .ok t := by
  rw [at?_eq_ok_iff, isAt, Bool.and_eq_true, Bool.and_eq_true, beq_iff_eq, beq_iff_eq, beq_iff_eq,
    and_assoc, eq_comm, eq_comm (a := c), eq_comm (a := r)]

theorem exists_isAt (t : TileId) : ∃ c r : UInt8, t.isAt t.array c.toNat r.toNat = true := by
  have hc := t.column_lt
  have hr := t.row_lt
  refine ⟨.ofNat t.column, .ofNat t.row, ?_⟩
  rw [isAt_iff, UInt8.toNat_ofNat_of_lt' (Nat.lt_trans hc (by decide)),
    UInt8.toNat_ofNat_of_lt' (Nat.lt_trans hr (by decide))]
  exact at?_self t

theorem eq_of_parts {s t : TileId} (ha : s.array = t.array) (hc : s.column = t.column)
    (hr : s.row = t.row) : s = t := by
  cases s; cases t; simp_all

@[simp] theorem ofAddress_address (t : TileId) (o : Nat) : ofAddress (t.address o) = t := by
  have ha := t.array_lt
  have hc := t.column_lt
  have hr := t.row_lt
  apply eq_of_parts
  · show t.address o / 0x40000000 % 0x400000000 = t.array
    rw [address, windowSize_eq]; omega
  · show t.address o / 0x800000 % 0x80 = t.column
    rw [address, windowSize_eq]; omega
  · show t.address o / 0x40000 % 0x20 = t.row
    rw [address, windowSize_eq]; omega

@[simp] theorem address_mod (t : TileId) (o : Nat) :
    t.address o % windowSize = o % windowSize := by
  rw [address, windowSize_eq]
  omega

theorem address_inj {s t : TileId} {o p : Nat} (ho : o < windowSize) (hp : p < windowSize) :
    s.address o = t.address p ↔ s = t ∧ o = p := by
  constructor
  · intro h
    have hst := congrArg ofAddress h
    have hop := congrArg (· % windowSize) h
    simp only [ofAddress_address] at hst
    simp only [address_mod, Nat.mod_eq_of_lt ho, Nat.mod_eq_of_lt hp] at hop
    exact ⟨hst, hop⟩
  · rintro ⟨rfl, rfl⟩
    rfl

/-- A word inside a window is not the last one that an address could be behind. -/
theorem address_le (t : TileId) {o : Nat} (ho : o + 4 ≤ windowSize) :
    t.address o ≤ 0xFFFFFFFFFFFFFFFC := by
  have ha := t.array_lt
  have hc := t.column_lt
  have hr := t.row_lt
  rw [windowSize_eq] at ho
  rw [address, windowSize_eq]
  omega

theorem isShim_of_at? {a c : Nat} {r : UInt8} {t : TileId} (h : at? a c r.toNat = .ok t) :
    t.isShim = (r == 0) := by
  obtain ⟨-, -, hr⟩ := at?_eq_ok h
  rw [isShim, hr, Bool.eq_iff_iff, beq_iff_eq, beq_iff_eq, ← UInt8.toNat_inj]
  rfl

end TileId

namespace Register

@[simp] theorem ofAddress_address (r : Register) : ofAddress r.address = r := by
  obtain ⟨t, o, ho⟩ := r
  simp [ofAddress, address, Nat.mod_eq_of_lt ho]

theorem address_inj {r s : Register} : r.address = s.address ↔ r = s := by
  constructor
  · intro h
    have := congrArg ofAddress h
    simpa using this
  · rintro rfl
    rfl

@[simp] theorem tile_ofAddress (r : Register) : TileId.ofAddress r.address = r.tile := by
  simp [address]

end Register
end ArrayImage
