import ArrayImage.Proofs.Ports
import Mathlib.Data.List.Basic
import Mathlib.Data.List.Pairwise

/-!
# ArrayImage.Proofs.ShimMux

The two registers of a shim mux after the stream phase.

They are the only registers whose words are put together in the log, bit by bit. So what they hold
in the end is what they held before with the bits of all connects on the tile, and neither the
order of the connects nor their number matters (`streamSteps_accumulate`). Connects of different
streams have different bits, so each of them can be read back.
-/

namespace ArrayImage

open RegisterMap

/-! ## Bits that are turned on -/

namespace WriteLog

theorem wordAt_apply (log : WriteLog) (w : Write) (a : Nat) :
    (log.apply w).wordAt a =
      if w.address = a then w.update.on (log.wordAt a) else log.wordAt a := by
  rw [wordAt, get?_apply]
  split <;> rfl

/-- Where bits are only ever turned on, a bit is on when it was before or some write has it. -/
theorem getLsbD_wordAt_applyAll {ws : List Write} {a : Nat}
    (h : ∀ w ∈ ws, w.address = a → ∃ bits, w.update = .raise bits) (log : WriteLog) (i : Nat) :
    ((log.applyAll ws).wordAt a).getLsbD i = true ↔ (log.wordAt a).getLsbD i = true ∨
      ∃ w ∈ ws, w.address = a ∧ ∃ bits, w.update = .raise bits ∧ bits.getLsbD i = true := by
  induction ws generalizing log with
  | nil => simp
  | cons w ws ih =>
    rw [List.forall_mem_cons] at h
    rw [applyAll_cons, ih h.2, wordAt_apply, List.exists_mem_cons_iff, ← or_assoc]
    refine or_congr_left ?_
    by_cases hw : w.address = a
    · obtain ⟨bits, hbits⟩ := h.1 hw
      simp [hw, hbits, Update.on]
    · simp [hw]

end WriteLog

namespace Script

/-- Some write turns these bits on at `a`. -/
def Raises (s : Script) (a : Nat) (bits : Word) : Prop :=
  ∃ w, .write w ∈ s ∧ w.address = a ∧ w.update = .raise bits

variable {a : Nat} {bits : Word}

@[simp] theorem raises_flatMap {α : Type} {l : List α} {f : α → Script} :
    Raises (l.flatMap f) a bits ↔ ∃ x ∈ l, (f x).Raises a bits := by
  simp only [Raises, List.mem_flatMap]
  constructor
  · rintro ⟨w, ⟨x, hx, hw⟩, ha⟩
    exact ⟨x, hx, w, hw, ha⟩
  · rintro ⟨x, hx, w, hw, ha⟩
    exact ⟨w, ⟨x, hx, hw⟩, ha⟩

theorem getLsbD_wordAt_applyTo {s : Script} (hs : s.Completes)
    (h : ∀ w, .write w ∈ s → w.address = a → ∃ bits, w.update = .raise bits) (log : WriteLog)
    (i : Nat) : ((s.applyTo log).wordAt a).getLsbD i = true ↔
      (log.wordAt a).getLsbD i = true ∨ ∃ bits, s.Raises a bits ∧ bits.getLsbD i = true := by
  rw [applyTo, WriteLog.getLsbD_wordAt_applyAll fun w hw => h w ((mem_writes_iff hs).mp hw)]
  refine or_congr_right ?_
  constructor
  · rintro ⟨w, hw, ha, bits, hu, hi⟩
    exact ⟨bits, ⟨w, (mem_writes_iff hs).mp hw, ha, hu⟩, hi⟩
  · rintro ⟨bits, ⟨w, hw, ha, hu⟩, hi⟩
    exact ⟨w, (mem_writes_iff hs).mpr hw, ha, bits, hu, hi⟩

end Script

/-! ## The connects of a tile -/

def Connect.muxBitsAt (o : Nat) (c : Connect) : Word :=
  match c.muxBits with
  | .ok (some (register, bits)) => if register = o then bits else 0
  | _ => 0

def muxUnion (o : Nat) (cs : List Connect) : Word :=
  cs.foldr (fun c word => c.muxBitsAt o ||| word) 0

theorem Connect.getLsbD_muxBitsAt {c : Connect} {o i : Nat} :
    (c.muxBitsAt o).getLsbD i = true ↔
      ∃ bits, c.muxBits = .ok (some (o, bits)) ∧ bits.getLsbD i = true := by
  unfold muxBitsAt
  split
  · rename_i register bits hc
    by_cases ho : register = o
    · simp [hc, ho]
    · simp [hc, ho]
  · simp_all

theorem getLsbD_muxUnion {o : Nat} {cs : List Connect} {i : Nat} :
    (muxUnion o cs).getLsbD i = true ↔
      ∃ c ∈ cs, ∃ bits, c.muxBits = .ok (some (o, bits)) ∧ bits.getLsbD i = true := by
  induction cs with
  | nil => simp [muxUnion]
  | cons c cs ih =>
    rw [List.exists_mem_cons_iff, ← ih, ← Connect.getLsbD_muxBitsAt, ← Bool.or_eq_true,
      ← BitVec.getLsbD_or]
    rfl

/-- Neither the order of the connects nor how often they are there matters. -/
theorem muxUnion_congr {o : Nat} {cs cs' : List Connect} (h : ∀ c, c ∈ cs ↔ c ∈ cs') :
    muxUnion o cs = muxUnion o cs' := by
  apply BitVec.eq_of_getLsbD_eq
  intro i _
  rw [Bool.eq_iff_iff, getLsbD_muxUnion, getLsbD_muxUnion]
  simp only [h]

def Device.muxConnects (d : Device) (t : TileId) : List Connect :=
  (d.shimMuxes.filter fun m =>
    t.isAt d.arrayOffset.toNat m.column.toNat m.row.toNat).flatMap ShimMux.connects

def IsMuxOffset (o : Nat) : Prop :=
  o = shimMux ∨ o = shimDemux

theorem IsMuxOffset.lt_windowSize {o : Nat} (h : IsMuxOffset o) : o < windowSize := by
  rcases h with rfl | rfl <;> decide

theorem Connect.raises_muxSteps {t u : TileId} {c : Connect} (hs : Script.Completes (c.muxSteps u))
    {o : Nat} (ho : IsMuxOffset o) {bits : Word} :
    Script.Raises (c.muxSteps u) (t.address o) bits ↔
      u = t ∧ c.muxBits = .ok (some (o, bits)) := by
  unfold muxSteps at hs ⊢
  split
  · simp_all [Script.Raises]
  · simp_all [Script.Raises]
  · rename_i register bits' hc
    simp only [hc, Script.completes_cons] at hs
    obtain ⟨hcol, hreg⟩ := Step.stop?_put_eq_none_iff.mp hs.1
    simp only [Script.Raises, Step.put_eq_write _ hcol hreg, List.mem_singleton, hc,
      Step.write.injEq, exists_eq_left, Write.address, Register.address,
      TileId.address_inj hreg ho.lt_windowSize, Except.ok.injEq, Option.some.injEq, Prod.mk.injEq,
      Update.raise.injEq, and_assoc]

theorem ShimMux.raises_steps {t u : TileId} {m : ShimMux}
    (hs : Script.Completes (m.connects.flatMap (Connect.muxSteps u))) {o : Nat}
    (ho : IsMuxOffset o) {bits : Word} :
    Script.Raises (m.connects.flatMap (Connect.muxSteps u)) (t.address o) bits ↔
      u = t ∧ ∃ c ∈ m.connects, c.muxBits = .ok (some (o, bits)) := by
  rw [Script.completes_flatMap] at hs
  rw [Script.raises_flatMap]
  constructor
  · rintro ⟨c, hc, hraise⟩
    obtain ⟨rfl, hbits⟩ := (Connect.raises_muxSteps (hs c hc) ho).mp hraise
    exact ⟨rfl, c, hc, hbits⟩
  · rintro ⟨rfl, c, hc, hbits⟩
    exact ⟨c, hc, (Connect.raises_muxSteps (hs c hc) ho).mpr ⟨rfl, hbits⟩⟩

/-! ## Streams -/

/-- A stream through the shim mux, and the lower one of its two bits. -/
structure MuxStream where
  register : Nat
  index : UInt8
  low : Nat
deriving DecidableEq

def muxStreams : List MuxStream :=
  [⟨shimMux, 2, 8⟩, ⟨shimMux, 3, 10⟩, ⟨shimMux, 6, 12⟩, ⟨shimMux, 7, 14⟩,
    ⟨shimDemux, 2, 4⟩, ⟨shimDemux, 3, 6⟩, ⟨shimDemux, 6, 8⟩, ⟨shimDemux, 7, 10⟩]

/-- What the far end of a stream can be, with its select. -/
def muxSelects : List (Bundle × Nat) :=
  [(.plio, 0), (.dma, 1), (.noc, 2)]

/-- A connect goes through the mux: a port to the north is an end of its stream, and the bundle of
the other port has the select. -/
structure Connect.Crosses (c : Connect) (x : MuxStream) (select : Nat) : Prop where
  stream : x ∈ muxStreams
  ends : x.register = shimDemux ∧ c.source = ⟨.north, x.index⟩ ∧
      (c.dest.bundle, select) ∈ muxSelects ∨
    x.register = shimMux ∧ c.dest = ⟨.north, x.index⟩ ∧ (c.source.bundle, select) ∈ muxSelects

theorem demuxShift_eq_ok_iff {index : UInt8} {low : Nat} :
    demuxShift index = .ok low ↔ ⟨shimDemux, index, low⟩ ∈ muxStreams := by
  unfold demuxShift
  split_ifs <;> simp_all [muxStreams, shimMux, shimDemux] <;> omega

theorem muxShift_eq_ok_iff {index : UInt8} {low : Nat} :
    muxShift index = .ok low ↔ ⟨shimMux, index, low⟩ ∈ muxStreams := by
  unfold muxShift
  split_ifs <;> simp_all [muxStreams, shimMux, shimDemux] <;> omega

theorem Bundle.muxSelect_eq_ok_iff {b : Bundle} {w : Word} :
    b.muxSelect = .ok w ↔ ∃ select, (b, select) ∈ muxSelects ∧ w = .ofNat select := by
  cases b <;> simp [muxSelect, muxSelects] <;> exact eq_comm

/-- Both directions through the mux put the select of one port into the field of the other. -/
theorem muxField_eq_some_iff {register o : Nat} {shift : Except RouteError Nat}
    {select : Except RouteError Word} {bits : Word} :
    (do
        let low ← shift
        let w ← select
        return some (register, w <<< low)) = Except.ok (some (o, bits)) ↔
      ∃ low w, shift = .ok low ∧ select = .ok w ∧ register = o ∧ bits = w <<< low := by
  cases shift with
  | error e =>
    constructor
    · nofun
    · rintro ⟨low, w, h, -⟩
      cases h
  | ok low =>
    cases select with
    | error e =>
      constructor
      · nofun
      · rintro ⟨low, w, -, h, -⟩
        cases h
    | ok w =>
      constructor
      · intro h
        cases h
        exact ⟨low, w, rfl, rfl, rfl, rfl⟩
      · rintro ⟨low, w, h, h', rfl, rfl⟩
        cases h
        cases h'
        rfl

/-- The connects that have bits are the ones that go through the mux. -/
theorem Connect.muxBits_eq_some_iff {c : Connect} {o : Nat} {bits : Word} :
    c.muxBits = .ok (some (o, bits)) ↔
      ∃ x select, c.Crosses x select ∧ x.register = o ∧ bits = Word.ofNat select <<< x.low := by
  have hnorth : ∀ select, (Bundle.north, select) ∉ muxSelects := by
    simp [muxSelects]
  obtain ⟨⟨source, i⟩, ⟨dest, j⟩⟩ := c
  unfold muxBits
  split_ifs with hs hd
  · rw [muxField_eq_some_iff]
    simp only [demuxShift_eq_ok_iff, Bundle.muxSelect_eq_ok_iff]
    constructor
    · rintro ⟨low, _, hlow, ⟨select, hsel, rfl⟩, rfl, rfl⟩
      exact ⟨⟨_, _, low⟩, select, ⟨hlow, .inl ⟨rfl, by simp_all, hsel⟩⟩, rfl, rfl⟩
    · rintro ⟨⟨r, k, low⟩, select, ⟨hx, ⟨hr, he, hsel⟩ | ⟨hr, he, hsel⟩⟩, rfl, rfl⟩
      · cases hr
        cases he
        exact ⟨low, _, hx, ⟨select, hsel, rfl⟩, rfl, rfl⟩
      · exact absurd (hs ▸ hsel) (hnorth select)
  · rw [muxField_eq_some_iff]
    simp only [muxShift_eq_ok_iff, Bundle.muxSelect_eq_ok_iff]
    constructor
    · rintro ⟨low, _, hlow, ⟨select, hsel, rfl⟩, rfl, rfl⟩
      exact ⟨⟨_, _, low⟩, select, ⟨hlow, .inr ⟨rfl, by simp_all, hsel⟩⟩, rfl, rfl⟩
    · rintro ⟨⟨r, k, low⟩, select, ⟨hx, ⟨hr, he, hsel⟩ | ⟨hr, he, hsel⟩⟩, rfl, rfl⟩
      · cases he
        exact absurd rfl hs
      · cases hr
        cases he
        exact ⟨low, _, hx, ⟨select, hsel, rfl⟩, rfl, rfl⟩
  · constructor
    · nofun
    · rintro ⟨x, select, ⟨-, ⟨-, he, -⟩ | ⟨-, he, -⟩⟩, -⟩
      · cases he
        exact absurd rfl hs
      · cases he
        exact absurd rfl hd

theorem MuxStream.disjoint : ∀ x ∈ muxStreams, ∀ y ∈ muxStreams, x.register = y.register →
    x ≠ y → x.low + 2 ≤ y.low ∨ y.low + 2 ≤ x.low := by
  decide

theorem MuxStream.low_lt : ∀ x ∈ muxStreams, x.low < 16 := by
  decide

namespace Connect.Crosses

variable {c : Connect} {x y : MuxStream} {v w : Nat}

theorem select_lt (h : c.Crosses x v) : v < 3 := by
  rcases h.ends with ⟨-, -, hv⟩ | ⟨-, -, hv⟩
  · revert hv
    simp [muxSelects]
    omega
  · revert hv
    simp [muxSelects]
    omega

/-- A connect has one select. -/
theorem select_eq (h : c.Crosses x v) (h' : c.Crosses x w) : v = w := by
  have hsel : ∀ p ∈ muxSelects, ∀ q ∈ muxSelects, p.1 = q.1 → p.2 = q.2 := by decide
  have hne : shimDemux ≠ shimMux := by decide
  rcases h.ends with ⟨hr, -, hv⟩ | ⟨hr, -, hv⟩ <;> rcases h'.ends with ⟨hr', -, hw⟩ | ⟨hr', -, hw⟩
  · exact hsel _ hv _ hw rfl
  · exact absurd (hr.symm.trans hr') hne
  · exact absurd (hr'.symm.trans hr) hne
  · exact hsel _ hv _ hw rfl

/-- Only the two bits of the stream can be on. -/
theorem lt_of_testBit (h : c.Crosses x v) {i : Nat} (hi : v.testBit i = true) : i < 2 := by
  by_contra hle
  have hlt : v < 2 ^ i := by
    have := Nat.pow_le_pow_right (show 0 < 2 by decide) (Nat.le_of_not_lt hle)
    have := h.select_lt
    omega
  rw [Nat.testBit_lt_two_pow hlt] at hi
  cases hi

theorem getLsbD_bits (h : c.Crosses x v) (i : Nat) :
    (Word.ofNat v <<< x.low).getLsbD i = true ↔ x.low ≤ i ∧ v.testBit (i - x.low) = true := by
  have hlow := MuxStream.low_lt x h.stream
  simp only [BitVec.getLsbD_shiftLeft, BitVec.getLsbD_ofNat, Bool.and_eq_true, decide_eq_true_eq,
    Bool.not_eq_true', decide_eq_false_iff_not]
  constructor
  · rintro ⟨⟨-, hle⟩, -, hi⟩
    exact ⟨Nat.le_of_not_lt hle, hi⟩
  · rintro ⟨hle, hi⟩
    have := h.lt_of_testBit hi
    exact ⟨⟨by omega, by omega⟩, by omega, hi⟩

end Connect.Crosses

/-- Two connects do not use the same stream. -/
def Connect.Apart (c c' : Connect) : Prop :=
  ∀ x v y w, c.Crosses x v → c'.Crosses y w → (x.register, x.index) ≠ (y.register, y.index)

instance : Std.Symm Connect.Apart :=
  ⟨fun _ _ h x v y w hx hy he => h y w x v hy hx he.symm⟩

/-- The connects that go through the mux use different streams. -/
def StreamsDistinct (cs : List Connect) : Prop :=
  cs.Pairwise Connect.Apart

/-- The register that a connect would use, and the index of its port to the north. -/
def Connect.muxKey (c : Connect) : Nat × UInt8 :=
  if c.source.bundle = .north then (shimDemux, c.source.index) else (shimMux, c.dest.index)

theorem Connect.Crosses.muxKey_eq {c : Connect} {x : MuxStream} {v : Nat} (h : c.Crosses x v) :
    c.muxKey = (x.register, x.index) := by
  rcases h.ends with ⟨hr, he, -⟩ | ⟨hr, he, hs⟩
  · simp [muxKey, hr, he]
  · have hne : c.source.bundle ≠ .north := by
      intro heq
      simp [heq, muxSelects] at hs
    simp [muxKey, hr, he, hne]

theorem StreamsDistinct.of_muxKey {cs : List Connect}
    (h : cs.Pairwise fun c c' => c.muxKey ≠ c'.muxKey) : StreamsDistinct cs := by
  refine h.imp ?_
  intro c c' hne x v y w hx hy
  rwa [← hx.muxKey_eq, ← hy.muxKey_eq]

/-- In the register at `o` each connect can be read back, and nothing else is there. -/
structure MuxDecodes (cs : List Connect) (o : Nat) (word : Word) : Prop where
  own : ∀ c ∈ cs, ∀ x v, c.Crosses x v → x.register = o → (word.extractLsb' x.low 2).toNat = v
  rest : ∀ i, (∀ c ∈ cs, ∀ x v, c.Crosses x v → x.register = o → i < x.low ∨ x.low + 2 ≤ i) →
    word.getLsbD i = false

theorem StreamsDistinct.select_eq {cs : List Connect} (h : StreamsDistinct cs) {c c' : Connect}
    (hc : c ∈ cs) (hc' : c' ∈ cs) {x : MuxStream} {v w : Nat} (hx : c.Crosses x v)
    (hx' : c'.Crosses x w) : v = w := by
  by_cases he : c = c'
  · subst he
    exact hx.select_eq hx'
  · have hapart : c.Apart c' := List.Pairwise.forall h hc hc' he
    exact absurd rfl (hapart x v x w hx hx')

theorem getLsbD_muxUnion_iff {o : Nat} {cs : List Connect} {i : Nat} :
    (muxUnion o cs).getLsbD i = true ↔ ∃ c ∈ cs, ∃ x v, c.Crosses x v ∧ x.register = o ∧
      x.low ≤ i ∧ v.testBit (i - x.low) = true := by
  rw [getLsbD_muxUnion]
  constructor
  · rintro ⟨c, hc, bits, hbits, hi⟩
    obtain ⟨x, v, hx, hr, rfl⟩ := Connect.muxBits_eq_some_iff.mp hbits
    exact ⟨c, hc, x, v, hx, hr, (hx.getLsbD_bits i).mp hi⟩
  · rintro ⟨c, hc, x, v, hx, hr, hi⟩
    exact ⟨c, hc, _, Connect.muxBits_eq_some_iff.mpr ⟨x, v, hx, hr, rfl⟩,
      (hx.getLsbD_bits i).mpr hi⟩

theorem StreamsDistinct.muxDecodes {cs : List Connect} (h : StreamsDistinct cs) (o : Nat) :
    MuxDecodes cs o (muxUnion o cs) where
  own c hc x v hx hr := by
    apply Nat.eq_of_testBit_eq
    intro j
    rw [BitVec.testBit_toNat, BitVec.getLsbD_extractLsb', Bool.eq_iff_iff, Bool.and_eq_true,
      decide_eq_true_eq, getLsbD_muxUnion_iff]
    constructor
    · rintro ⟨hj, c', hc', y, w, hy, hr', hle, hw⟩
      have hlt := hy.lt_of_testBit hw
      -- fields do not overlap, so a bit in the field of `x` comes from a connect of the same stream
      have hxy : y = x := by
        by_contra hne
        have := MuxStream.disjoint y hy.stream x hx.stream (hr'.trans hr.symm) hne
        omega
      subst hxy
      rwa [h.select_eq hc hc' hx hy, ← Nat.add_sub_cancel_left y.low j]
    · intro hv
      refine ⟨hx.lt_of_testBit hv, c, hc, x, v, hx, hr, Nat.le_add_right _ _, ?_⟩
      rwa [Nat.add_sub_cancel_left]
  rest i hi := by
    rw [Bool.eq_false_iff, ne_eq, getLsbD_muxUnion_iff]
    rintro ⟨c, hc, x, v, hx, hr, hle, hv⟩
    have := hi c hc x v hx hr
    have := hx.lt_of_testBit hv
    omega

namespace Device

variable {d : Device} {t : TileId} {o : Nat}

theorem raises_muxSteps (hs : d.muxSteps.Completes) (ho : IsMuxOffset o) {bits : Word} :
    d.muxSteps.Raises (t.address o) bits ↔
      ∃ c ∈ d.muxConnects t, c.muxBits = .ok (some (o, bits)) := by
  have hmux := fun m hm => Script.completes_onTile.mp (Script.completes_flatMap.mp hs m hm)
  simp only [muxSteps, Script.raises_flatMap, muxConnects, List.mem_flatMap, List.mem_filter]
  constructor
  · rintro ⟨m, hm, hraise⟩
    obtain ⟨u, hu, hsteps⟩ := hmux m hm
    rw [Script.onTile_eq hu, ShimMux.raises_steps hsteps ho] at hraise
    obtain ⟨rfl, c, hc, hbits⟩ := hraise
    exact ⟨c, ⟨m, ⟨hm, TileId.isAt_iff.mpr hu⟩, hc⟩, hbits⟩
  · rintro ⟨c, ⟨m, ⟨hm, hat⟩, hc⟩, hbits⟩
    obtain ⟨u, hu, hsteps⟩ := hmux m hm
    obtain rfl : u = t := Except.ok.inj (hu.symm.trans (TileId.isAt_iff.mp hat))
    refine ⟨m, hm, ?_⟩
    rw [Script.onTile_eq hu, ShimMux.raises_steps hsteps ho]
    exact ⟨rfl, c, hc, hbits⟩

/-- Switches have their registers elsewhere. -/
theorem mem_muxSteps_of_address (ho : IsMuxOffset o) {w : Write} (hw : .write w ∈ d.streamSteps)
    (ha : w.address = t.address o) : .write w ∈ d.muxSteps := by
  rw [streamSteps_eq, List.mem_append] at hw
  refine hw.resolve_left fun hr => ?_
  obtain ⟨hm, hd⟩ := ne_mux_of_masterBase_le (d.isRoute_switchSteps w hr).1.masterBase_le.1
  have hoff := ((TileId.address_inj w.register.offset_lt ho.lt_windowSize).mp ha).2
  rcases ho with rfl | rfl
  · exact hm hoff
  · exact hd hoff

theorem raises_streamSteps (hs : d.streamSteps.Completes) (ho : IsMuxOffset o) {bits : Word} :
    d.streamSteps.Raises (t.address o) bits ↔
      ∃ c ∈ d.muxConnects t, c.muxBits = .ok (some (o, bits)) := by
  rw [← raises_muxSteps (Script.completes_append.mp hs).2 ho]
  constructor
  · rintro ⟨w, hw, ha, hu⟩
    exact ⟨w, mem_muxSteps_of_address ho hw ha, ha, hu⟩
  · rintro ⟨w, hw, ha, hu⟩
    exact ⟨w, List.mem_append_right _ hw, ha, hu⟩

/-- The mux registers hold what they held before, with the bits of all connects on their tile. -/
theorem read_streamSteps (hs : d.streamSteps.Completes) (ho : IsMuxOffset o) (log : WriteLog) :
    (d.streamSteps.applyTo log).read t o = log.read t o ||| muxUnion o (d.muxConnects t) := by
  have hraise : ∀ w, .write w ∈ d.streamSteps → w.address = t.address o →
      ∃ bits, w.update = .raise bits := by
    intro w hw ha
    exact (d.isMux_muxSteps w (mem_muxSteps_of_address ho hw ha)).2
  apply BitVec.eq_of_getLsbD_eq
  intro i _
  rw [Bool.eq_iff_iff, BitVec.getLsbD_or, Bool.or_eq_true, getLsbD_muxUnion, WriteLog.read,
    WriteLog.read, Script.getLsbD_wordAt_applyTo hs hraise]
  refine or_congr_right ?_
  simp only [raises_streamSteps hs ho]
  constructor
  · rintro ⟨bits, ⟨c, hc, hbits⟩, hi⟩
    exact ⟨c, hc, bits, hbits, hi⟩
  · rintro ⟨c, hc, bits, hbits, hi⟩
    exact ⟨bits, ⟨c, hc, hbits⟩, hi⟩

/-- What the stream phase does to the registers of a shim mux. -/
structure MuxAccumulates (d : Device) (t : TileId) (before after : WriteLog) : Prop where
  routable : ∀ c ∈ d.muxConnects t, ∀ o bits, c.muxBits = .ok (some (o, bits)) ↔
    ∃ x v, c.Crosses x v ∧ x.register = o ∧ bits = Word.ofNat v <<< x.low
  /-- The bits of all connects on the tile are turned on. -/
  accumulated : ∀ o, IsMuxOffset o →
    after.read t o = before.read t o ||| muxUnion o (d.muxConnects t)
  /-- Another design with the same connects on the tile does the same, whatever their order, their
  entries and their numbers are, and whatever its switches are. -/
  independent : ∀ (e : Device) (log : WriteLog), e.streamSteps.Completes →
    (∀ c, c ∈ e.muxConnects t ↔ c ∈ d.muxConnects t) → ∀ o, IsMuxOffset o →
    log.read t o = before.read t o → (e.streamSteps.applyTo log).read t o = after.read t o
  decoded : StreamsDistinct (d.muxConnects t) → ∀ o, IsMuxOffset o → before.read t o = 0 →
    MuxDecodes (d.muxConnects t) o (after.read t o)

theorem streamSteps_accumulate (hs : d.streamSteps.Completes) (log : WriteLog) (t : TileId) :
    d.MuxAccumulates t log (d.streamSteps.applyTo log) where
  routable _ _ _ _ := Connect.muxBits_eq_some_iff
  accumulated o ho := read_streamSteps hs ho log
  independent e log' he hc o ho hread := by
    rw [read_streamSteps he ho, read_streamSteps hs ho, hread, muxUnion_congr hc]
  decoded hd o ho hzero := by
    have hread : (d.streamSteps.applyTo log).read t o = muxUnion o (d.muxConnects t) := by
      simp [read_streamSteps hs ho, hzero]
    rw [hread]
    exact hd.muxDecodes o

/-- A shim tile with two entries: streams in both directions, and connects that are rejected or do
not go through the mux between them. -/
def muxedTwice : Device where
  schemaVersion := "1.0"
  name := "muxed"
  arrayOffset := 0
  tiles := [⟨3, 0, none, none⟩]
  buffers := []
  locks := []
  memories := []
  switchboxes := [⟨3, 0, [⟨⟨.south, 3⟩, ⟨.north, 0⟩⟩], [], [], []⟩]
  shimMuxes :=
    [⟨3, 0, [⟨⟨.dma, 0⟩, ⟨.north, 3⟩⟩, ⟨⟨.dma, 0⟩, ⟨.north, 4⟩⟩, ⟨⟨.north, 2⟩, ⟨.noc, 0⟩⟩]⟩,
      ⟨3, 0, [⟨⟨.south, 0⟩, ⟨.dma, 0⟩⟩, ⟨⟨.noc, 0⟩, ⟨.north, 7⟩⟩, ⟨⟨.north, 3⟩, ⟨.plio, 1⟩⟩]⟩]

theorem muxedTwice_accumulates :
    let t : TileId := { array := 0, column := 3, row := 0 }
    let after := muxedTwice.streamSteps.applyTo .empty
    muxedTwice.streamSteps.Completes ∧ muxedTwice.MuxAccumulates t .empty after ∧
      StreamsDistinct (muxedTwice.muxConnects t) ∧
      after.read t shimMux = 0x8400 ∧ after.read t shimDemux = 0x20 := by
  intro t after
  have hs : muxedTwice.streamSteps.Completes := by
    unfold Script.Completes
    decide +kernel
  have h : muxedTwice.MuxAccumulates t .empty after := streamSteps_accumulate hs .empty t
  refine ⟨hs, h, StreamsDistinct.of_muxKey (by decide +kernel), ?_, ?_⟩
  · rw [h.accumulated shimMux (.inl rfl)]
    decide +kernel
  · rw [h.accumulated shimDemux (.inr rfl)]
    decide +kernel

end Device
end ArrayImage
