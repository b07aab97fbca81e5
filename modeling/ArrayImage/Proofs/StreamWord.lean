import ArrayImage.Proofs.BitField
import ArrayImage.Stream.Word

/-!
# ArrayImage.Proofs.StreamWord

The words of stream-switch registers as numbers. Circuit and packet words differ in their two top
bits; below them a master has the number of its slave port, or the selects and the arbiter of the
packets it takes.
-/

namespace ArrayImage
namespace StreamWord

open RegisterMap

theorem and_ones (v : Word) {n : Nat} (hn : n < 32) :
    v &&& .ofNat (1 <<< n - 1) = v % .ofNat (1 <<< n) := by
  have hlt : 1 <<< n < 2 ^ 32 := by
    rw [Nat.one_shiftLeft]
    exact Nat.pow_lt_pow_right (by decide) hn
  apply BitVec.eq_of_toNat_eq
  rw [BitVec.toNat_and, BitVec.toNat_umod, BitVec.toNat_ofNat, BitVec.toNat_ofNat,
    Nat.mod_eq_of_lt hlt, Nat.mod_eq_of_lt (Nat.lt_of_le_of_lt (Nat.sub_le _ _) hlt),
    Nat.one_shiftLeft]
  exact Nat.and_two_pow_sub_one_eq_mod _ n

theorem set_eq_mod (f : BitField) (v : Word) (hw : f.width < 32) :
    f.set v = (v % .ofNat (1 <<< f.width)) <<< f.low := by
  rw [BitField.set_eq, BitField.valueMask, and_ones v hw]

theorem config_set (v : Word) : StreamPort.config.set v = v % 128 := by
  rw [set_eq_mod _ _ (by decide)]
  exact BitVec.shiftLeft_zero _

@[simp] theorem circuitSlave_eq : circuitSlave = 0x80000000 := by decide

@[simp] theorem packetSlave_eq : packetSlave = 0xC0000000 := by decide

/-- The number of a slave port has no eighth bit, so a circuit never drops headers. -/
theorem circuitMaster_ofNat :
    ∀ slave < 128, circuitMaster (.ofNat slave) = 0x80000000 ||| .ofNat slave := by
  decide +kernel

theorem packetMaster_eq (mask arbiter : Word) (drop : Bool) :
    packetMaster mask arbiter drop =
      (0xC0000000 : Word) ||| (if drop then (0x80 : Word) else 0) |||
        (mask <<< 3 ||| arbiter) % 128 := by
  rw [packetMaster, config_set]
  cases drop <;> rfl

theorem packetSlot_eq (id mask msel arbiter : UInt8) :
    packetSlot id mask msel arbiter =
      (Word.ofByte id % 32) <<< 24 ||| (Word.ofByte mask % 32) <<< 16 ||| (0x100 : Word) |||
        (Word.ofByte msel % 4) <<< 4 ||| Word.ofByte arbiter % 8 := by
  rw [packetSlot, set_eq_mod _ _ (by decide), set_eq_mod _ _ (by decide),
    set_eq_mod _ (.ofByte msel) (by decide), set_eq_mod _ (.ofByte arbiter) (by decide),
    show PacketSlot.enable.flag true = 0x100 by decide, show PacketSlot.arbiter.low = 0 from rfl,
    BitVec.shiftLeft_zero]
  rfl

end StreamWord
end ArrayImage
