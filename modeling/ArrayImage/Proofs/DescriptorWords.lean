import ArrayImage.Dma.Descriptor
import ArrayImage.Proofs.BitField
import Mathlib.Algebra.Group.Nat.Defs

/-!
# ArrayImage.Proofs.DescriptorWords

The words of a descriptor, bit by bit.

A layout lists the parts of a word from the top, with the number that is put into each of them.
`Word.Exact` says that the parts neither overlap nor leave a bit out, that each of them holds its
number modulo its size, and that no other word does. `words_exact` is the main statement: every
word of every descriptor is exact for its layout. No value is assumed to fit; one that does can be
read back.
-/

namespace ArrayImage

open RegisterMap

/-! ## Parts of words -/

/-- Bits `high` to `low` of a word, and the number that is put there. -/
structure WordPart where
  high : Nat
  low : Nat
  value : Nat

/-- The number in bits `high` to `low` of a word. -/
def Word.bits (w : Word) (high low : Nat) : Nat :=
  (w.extractLsb high low).toNat

/-- Each part holds its number; what does not fit is cut off. -/
def Word.Holds (w : Word) (parts : List WordPart) : Prop :=
  ∀ p ∈ parts, Word.bits w p.high p.low = p.value % 2 ^ (p.high - p.low + 1)

/-- The parts stand below each other, and every bit is in one of them. -/
structure WordPart.Cover (parts : List WordPart) : Prop where
  apart : parts.Pairwise fun p q => q.high < p.low
  complete : ∀ i < 32, ∃ p ∈ parts, p.low ≤ i ∧ i ≤ p.high

/-- A word is put together from its parts and from nothing else. -/
structure Word.Exact (w : Word) (parts : List WordPart) : Prop where
  cover : WordPart.Cover parts
  unique : ∀ x : Word, Word.Holds x parts ↔ x = w
  /-- A number that fits can be read back. -/
  recovered : ∀ p ∈ parts, p.value < 2 ^ (p.high - p.low + 1) → Word.bits w p.high p.low = p.value

namespace Word

theorem testBit_bits (w : Word) (high low j : Nat) :
    (Word.bits w high low).testBit j =
      (decide (j < high - low + 1) && w.getLsbD (low + j)) := by
  rw [bits, BitVec.testBit_toNat, BitVec.getLsbD_extractLsb]

/-- Two words with the same parts have the same bits. -/
theorem Holds.eq {x y : Word} {parts : List WordPart} (hc : WordPart.Cover parts)
    (hx : Word.Holds x parts) (hy : Word.Holds y parts) : x = y := by
  apply BitVec.eq_of_getLsbD_eq
  intro i hi
  obtain ⟨p, hp, hl, hh⟩ := hc.complete i hi
  have hbits : Word.bits x p.high p.low = Word.bits y p.high p.low := by rw [hx p hp, hy p hp]
  have hbit := congrArg (Nat.testBit · (i - p.low)) hbits
  have hwidth : i - p.low < p.high - p.low + 1 := by omega
  simpa [testBit_bits, hwidth, Nat.add_sub_cancel' hl] using hbit

theorem Holds.exact {w : Word} {parts : List WordPart} (hw : Word.Holds w parts)
    (hc : WordPart.Cover parts) : Word.Exact w parts where
  cover := hc
  unique x := by
    constructor
    · intro hx
      exact Holds.eq hc hx hw
    · rintro rfl
      exact hw
  recovered p hp hfit := by
    rw [hw p hp, Nat.mod_eq_of_lt hfit]

@[simp] theorem holds_nil (w : Word) : Word.Holds w [] := by
  simp [Holds]

@[simp] theorem holds_cons {w : Word} {p : WordPart} {parts : List WordPart} :
    Word.Holds w (p :: parts) ↔
      Word.bits w p.high p.low = p.value % 2 ^ (p.high - p.low + 1) ∧ Word.Holds w parts := by
  simp [Holds]

@[simp] theorem holds_append {w : Word} {parts parts' : List WordPart} :
    Word.Holds w (parts ++ parts') ↔ Word.Holds w parts ∧ Word.Holds w parts' := by
  simp only [Holds, List.mem_append]
  constructor
  · intro h
    exact ⟨fun p hp => h p (.inl hp), fun p hp => h p (.inr hp)⟩
  · rintro ⟨h, h'⟩ p (hp | hp)
    · exact h p hp
    · exact h' p hp

/-! ### Parts that are set -/

@[simp] theorem bits_or (x y : Word) (high low : Nat) :
    Word.bits (x ||| y) high low = Word.bits x high low ||| Word.bits y high low := by
  apply Nat.eq_of_testBit_eq
  intro j
  rw [Nat.testBit_or, testBit_bits, testBit_bits, testBit_bits, BitVec.getLsbD_or,
    Bool.and_or_distrib_left]

@[simp] theorem bits_zero (high low : Nat) : Word.bits 0#32 high low = 0 := by
  simp [bits]

theorem Holds.or {x y : Word} {parts : List WordPart} (hx : Word.Holds x parts)
    (hy : ∀ p ∈ parts, Word.bits y p.high p.low = 0) : Word.Holds (x ||| y) parts := by
  intro p hp
  rw [bits_or, hx p hp, hy p hp, Nat.or_zero]

/-- A field reads its part of the word. -/
theorem bits_field (f : BitField) (w : Word) : Word.bits w f.high f.low = (f.get w).toNat := by
  apply Nat.eq_of_testBit_eq
  intro j
  rw [testBit_bits, BitVec.testBit_toNat, BitField.getLsbD_get, BitField.width]

theorem bits_set (f : BitField) (n : Nat) {high low : Nat} (hh : f.high = high)
    (hl : f.low = low) :
    Word.bits (f.set (.ofNat n)) high low = n % 2 ^ (high - low + 1) := by
  subst hh hl
  rw [bits_field, BitField.toNat_get_set_mod, Nat.one_shiftLeft, BitField.width]

theorem bits_set_of_disjoint (f : BitField) (v : Word) {high low : Nat}
    (h : high < f.low ∨ f.high < low) (hle : low ≤ high) : Word.bits (f.set v) high low = 0 := by
  apply Nat.eq_of_testBit_eq
  intro j
  rw [testBit_bits, BitField.getLsbD_set, Nat.zero_testBit, Bool.eq_false_iff]
  simp
  omega

theorem Holds.toNat_get {w : Word} {parts : List WordPart} (h : Word.Holds w parts) {f : BitField}
    {n : Nat} (hp : ⟨f.high, f.low, n⟩ ∈ parts) (hn : n < 1 <<< f.width) :
    (f.get w).toNat = n := by
  rw [Nat.one_shiftLeft, BitField.width] at hn
  rw [← bits_field, h _ hp, Nat.mod_eq_of_lt hn]

end Word

/-! ## Layouts -/

/-- The parts of the lock in an address word. An action that is not used has value 0, and the value
255 is not compared. -/
def LockGuard.parts (g : LockGuard) : List WordPart :=
  let release := (g.release.getD 0).toNat
  let acquire := (g.acquire.getD 0).toNat
  [⟨25, 22, g.id.toNat⟩,
    ⟨21, 21, g.release.isSome.toNat⟩, ⟨20, 20, if release = 255 then 0 else release⟩,
    ⟨19, 19, if release = 255 then 0 else 1⟩,
    ⟨18, 18, g.acquire.isSome.toNat⟩, ⟨17, 17, if acquire = 255 then 0 else acquire⟩,
    ⟨16, 16, if acquire = 255 then 0 else 1⟩]

def basePart (span : Option BufferSpan) : WordPart :=
  ⟨12, 0, span.elim 0 fun s => s.address / 4⟩

/-- The parts of the link in a control word. The slot 255 is no slot. -/
def linkParts : Option Nat → List WordPart
  | none | some 255 => [⟨17, 13, 0⟩]
  | some slot => [⟨17, 17, 1⟩, ⟨16, 13, slot⟩]

namespace Descriptor

/-- The address word of the first buffer. The lock has its parts only when there is a buffer. -/
def addressLayoutA (d : Descriptor) : List WordPart :=
  ⟨31, 26, 0⟩ :: (match d.a, d.lock with
    | some _, some lock => lock.parts
    | _, _ => [⟨25, 16, 0⟩]) ++ [⟨15, 13, 0⟩, basePart d.a]

def addressLayoutB (d : Descriptor) : List WordPart :=
  [⟨31, 13, 0⟩, basePart d.b]

def packetLayout (d : Descriptor) : List WordPart :=
  match d.packet with
  | none => [⟨31, 0, 0⟩]
  | some tag => [⟨31, 15, 0⟩, ⟨14, 12, tag.kind.toNat⟩, ⟨11, 5, 0⟩, ⟨4, 0, tag.id.toNat⟩]

/-- The control word. One less than length 0 is the largest number of 32 bits. -/
def controlLayout (d : Descriptor) (next : Option Nat) : List WordPart :=
  [⟨31, 31, 1⟩, ⟨30, 30, d.abMode.toNat⟩, ⟨29, 29, 0⟩, ⟨28, 28, d.fifoMode.toNat⟩,
    ⟨27, 27, d.packet.isSome.toNat⟩, ⟨26, 18, 0⟩] ++ linkParts next ++
    [⟨12, 0, (((d.a.or d.b).elim 0 BufferSpan.length) - 1).toNat⟩]

end Descriptor

/-! ## Address words -/

/-- A value that is compared has its two bits, and a value that is not has none. -/
theorem lockValueBits_eq (enable value : BitField) (action : Option UInt32) :
    lockValueBits enable value action =
      enable.set (.ofNat (if (action.getD 0).toNat = 255 then 0 else 1)) |||
        value.set (.ofNat (if (action.getD 0).toNat = 255 then 0 else (action.getD 0).toNat)) := by
  have hany : action.getD 0 = anyLockValue ↔ (action.getD 0).toNat = 255 := by
    rw [← UInt32.toNat_inj]
    rfl
  simp only [lockValueBits, hany]
  split
  · simp [BitField.set]
  · rfl

theorem LockGuard.holds_bits (g : LockGuard) : Word.Holds g.bits g.parts := by
  simp (disch := decide) [bits, parts, lockValueBits_eq, BitField.flag_eq_set, Word.bits_set,
    Word.bits_set_of_disjoint]

/-- A lock has nothing outside its bits. -/
theorem LockGuard.bits_of_outside (g : LockGuard) {high low : Nat} (h : high < 16 ∨ 25 < low)
    (hle : low ≤ high) : Word.bits g.bits high low = 0 := by
  have hset : ∀ f ∈ [DescriptorAddress.lockId, DescriptorAddress.releaseEnable,
      DescriptorAddress.releaseValue, DescriptorAddress.releaseValueEnable,
      DescriptorAddress.acquireEnable, DescriptorAddress.acquireValue,
      DescriptorAddress.acquireValueEnable], ∀ v, Word.bits (f.set v) high low = 0 := by
    intro f hf v
    have hf' : 16 ≤ f.low ∧ f.high ≤ 25 := by revert f; decide
    exact Word.bits_set_of_disjoint f v (by omega) hle
  simp [bits, lockValueBits_eq, BitField.flag_eq_set, hset]

theorem bits_baseBits (span : Option BufferSpan) :
    Word.bits (baseBits span) 12 0 = (basePart span).value % 2 ^ 13 := by
  cases span with
  | none => simp [baseBits, basePart]
  | some s => exact Word.bits_set DescriptorAddress.base (s.address / 4) rfl rfl

theorem bits_baseBits_above (span : Option BufferSpan) {high low : Nat} (h : 12 < low)
    (hle : low ≤ high) : Word.bits (baseBits span) high low = 0 := by
  cases span with
  | none => simp [baseBits]
  | some s => exact Word.bits_set_of_disjoint DescriptorAddress.base _ (.inr h) hle

namespace Descriptor

variable (d : Descriptor) (next : Option Nat)

theorem holds_addressWordB : Word.Holds d.addressWordB d.addressLayoutB := by
  simp [addressLayoutB, addressWordB, basePart, bits_baseBits, bits_baseBits_above]

theorem holds_addressWordA : Word.Holds d.addressWordA d.addressLayoutA := by
  cases ha : d.a with
  | none => simp [addressLayoutA, addressWordA, ha, baseBits, basePart]
  | some span =>
    cases hl : d.lock with
    | none =>
      simp [addressLayoutA, addressWordA, ha, hl, basePart, bits_baseBits, bits_baseBits_above]
    | some g =>
      have hlock : Word.Holds (g.bits ||| baseBits (some span)) g.parts := by
        refine Word.Holds.or g.holds_bits fun p hp => ?_
        have hplace : 12 < p.low ∧ p.low ≤ p.high := by
          revert p
          simp [LockGuard.parts]
        exact bits_baseBits_above _ hplace.1 hplace.2
      simp [addressLayoutA, addressWordA, ha, hl, hlock, g.bits_of_outside, basePart,
        bits_baseBits, bits_baseBits_above]

theorem holds_packetWord : Word.Holds d.packetWord d.packetLayout := by
  cases hp : d.packet with
  | none => simp [packetLayout, packetWord, hp]
  | some tag =>
    simp (disch := decide) [packetLayout, packetWord, hp, Word.bits_set, Word.bits_set_of_disjoint]

/-! ## Control words -/

theorem holds_nextBits : Word.Holds (nextBits next) (linkParts next) := by
  fun_cases linkParts next with
  | case1 => simp [nextBits]
  | case2 => simp [nextBits, noDescriptor]
  | case3 slot hslot =>
    have hne : slot ≠ noDescriptor := fun h => hslot (h ▸ rfl)
    simp (disch := decide) [nextBits, hne, BitField.flag_eq_set, Word.bits_set,
      Word.bits_set_of_disjoint]

theorem bits_nextBits_of_outside {high low : Nat} (h : high < 13 ∨ 17 < low) (hle : low ≤ high) :
    Word.bits (nextBits next) high low = 0 := by
  have hset : ∀ f ∈ [DescriptorControl.nextEnable, DescriptorControl.nextDescriptor],
      ∀ v, Word.bits (f.set v) high low = 0 := by
    intro f hf v
    have hf' : 13 ≤ f.low ∧ f.high ≤ 17 := by revert f; decide
    exact Word.bits_set_of_disjoint f v (by omega) hle
  cases next with
  | none => simp [nextBits]
  | some slot =>
    by_cases hslot : slot = noDescriptor
    · simp [nextBits, hslot]
    · simp [nextBits, hslot, BitField.flag_eq_set, hset]

theorem length_eq : d.length = (d.a.or d.b).elim 0 BufferSpan.length := by
  unfold length
  split <;> simp [*]

/-- The fields around the link do not reach into it. -/
theorem holds_controlWord_linkParts : Word.Holds (d.controlWord next) (linkParts next) := by
  intro p hp
  have hplace : 13 ≤ p.low ∧ p.low ≤ p.high ∧ p.high ≤ 17 := by
    revert hp
    fun_cases linkParts next <;> simp <;> grind
  have hset : ∀ f ∈ [DescriptorControl.length, DescriptorControl.fifoMode,
      DescriptorControl.abMode, DescriptorControl.packetEnable, DescriptorControl.valid],
      ∀ v, Word.bits (f.set v) p.high p.low = 0 := by
    intro f hf v
    have hf' : f.high < 13 ∨ 17 < f.low := by revert f; decide
    exact Word.bits_set_of_disjoint f v (by omega) hplace.2.1
  rw [← holds_nextBits next p hp]
  simp [controlWord, BitField.flag_eq_set, hset]

theorem holds_controlWord : Word.Holds (d.controlWord next) (d.controlLayout next) := by
  -- the link is settled by itself, since its parts depend on the slot
  simp only [controlLayout, Word.holds_append]
  refine ⟨⟨?_, d.holds_controlWord_linkParts next⟩, ?_⟩
  · simp (disch := decide) [controlWord, BitField.flag_eq_set, Word.bits_set,
      Word.bits_set_of_disjoint, bits_nextBits_of_outside]
  · rw [controlWord, ← length_eq]
    generalize (d.length - 1).toNat = n
    simp (disch := decide) [BitField.flag_eq_set, Word.bits_set, Word.bits_set_of_disjoint,
      bits_nextBits_of_outside]

/-! ## Layouts cover words -/

theorem cover_controlLayout : WordPart.Cover (d.controlLayout next) where
  apart := by
    unfold controlLayout
    fun_cases linkParts next <;> simp
  complete i hi := by
    unfold controlLayout
    fun_cases linkParts next <;> simp <;> omega

theorem cover_addressLayoutA : WordPart.Cover d.addressLayoutA where
  apart := by
    unfold addressLayoutA
    split <;> simp [LockGuard.parts, basePart]
  complete i hi := by
    unfold addressLayoutA
    split <;> simp [LockGuard.parts, basePart] <;> omega

theorem cover_addressLayoutB : WordPart.Cover d.addressLayoutB where
  apart := by simp [addressLayoutB, basePart]
  complete i hi := by
    simp [addressLayoutB, basePart]
    omega

theorem cover_packetLayout : WordPart.Cover d.packetLayout where
  apart := by
    unfold packetLayout
    split <;> simp
  complete i hi := by
    unfold packetLayout
    split <;> simp <;> omega

/-- Every bit of every word of a descriptor is what its layout says, whatever the numbers are. -/
theorem words_exact :
    ∃ a b packet control, d.words next = [(0x00, a), (0x04, b), (0x08, 0x00FF0001),
        (0x0C, 0xFFFF0100), (0x10, packet), (0x14, 0), (0x18, control)] ∧
      Word.Exact a d.addressLayoutA ∧ Word.Exact b d.addressLayoutB ∧
      Word.Exact packet d.packetLayout ∧ Word.Exact control (d.controlLayout next) := by
  refine ⟨d.addressWordA, d.addressWordB, d.packetWord, d.controlWord next, rfl, ?_, ?_, ?_, ?_⟩
  · exact d.holds_addressWordA.exact d.cover_addressLayoutA
  · exact d.holds_addressWordB.exact d.cover_addressLayoutB
  · exact d.holds_packetWord.exact d.cover_packetLayout
  · exact (d.holds_controlWord next).exact (d.cover_controlLayout next)

end Descriptor
end ArrayImage
