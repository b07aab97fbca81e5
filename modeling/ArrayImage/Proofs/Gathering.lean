import ArrayImage.Proofs.Decoding
import ArrayImage.Proofs.Lists
import ArrayImage.Proofs.Stepwise

/-!
# ArrayImage.Proofs.Gathering

What a block of a DMA program comes to: its descriptor, or none, and the diagnostics on the way.

Both loops of the gathering, over the transfers and over the lock uses, end at the first name that
is not known, and otherwise keep the last entry of each kind (`gather_eq`, `lockGuard_of_known`).
So a descriptor can be told from the lists of the block without going through them
(`DmaBlock.Gathers`), and `describe_exact` says that there is nothing else to it: which blocks have
a descriptor, all that is in it, and which diagnostics come in which order.
-/

namespace ArrayImage

/-! ## Transfers -/

/-- What a transfer moves, when its buffer has an address. A buffer that is not declared has
elements of four bytes. -/
def Device.span? (d : Device) (addresses : AddressSource) (u : Transfer) : Option BufferSpan :=
  (addresses u.buffer).map fun base =>
    ⟨base.toNat + u.offset.toNat, u.length, ((d.buffer? u.buffer).map (·.elementBits / 8)).getD 4⟩

/-- The places of all transfers that are looked at are inside the address space. -/
def DmaBlock.SumsFit (addresses : AddressSource) (b : DmaBlock) : Prop :=
  ∀ u ∈ b.transfers.takeWhile fun u => (addresses u.buffer).isSome, ∀ base,
    addresses u.buffer = some base → base.toNat + u.offset.toNat < 0x10000000000000000

section Transfers

variable {d : Device} {addresses : AddressSource} {ts : List Transfer}

/-- The span of the last transfer for a slot. -/
def Device.lastSpan? (d : Device) (addresses : AddressSource) (ts : List Transfer)
    (slot : BufferSlot) : Option BufferSpan :=
  (ts.filter fun u => u.slot = slot).getLast?.bind (d.span? addresses)

theorem Device.lastSpan?_eq_filterMap (h : ∀ u ∈ ts, (addresses u.buffer).isSome)
    (slot : BufferSlot) : d.lastSpan? addresses ts slot =
      (ts.filterMap fun u => if u.slot = slot then d.span? addresses u else none).getLast? := by
  have hsome : ∀ u ∈ ts, (if u.slot = slot then d.span? addresses u else none).isSome =
      decide (u.slot = slot) := by
    intro u hu
    by_cases hslot : u.slot = slot
    · rw [if_pos hslot, decide_eq_true hslot, span?, Option.isSome_map, h u hu]
    · rw [if_neg hslot, decide_eq_false hslot, Option.isSome_none]
  rw [getLast?_filterMap_of_isSome hsome, lastSpan?]
  cases hl : (ts.filter fun u => u.slot = slot).getLast? with
  | none => rfl
  | some u =>
    have hslot := (List.mem_filter.mp (List.mem_of_getLast? hl)).2
    rw [Option.bind_some, Option.bind_some, if_pos (of_decide_eq_true hslot)]

/-- A transfer whose place is inside the address space puts its span into its slot. -/
theorem Device.gather_cons_eq {u : Transfer} {base : UInt64} (hu : addresses u.buffer = some base)
    (hsum : base.toNat + u.offset.toNat < 0x10000000000000000) (a b : Option BufferSpan) :
    d.gather addresses (u :: ts) a b = d.gather addresses ts
      (if u.slot = .a then d.span? addresses u else a)
      (if u.slot = .b then d.span? addresses u else b) := by
  have hadd : checkedAdd 64 base.toNat u.offset.toNat = .ok (base.toNat + u.offset.toNat) :=
    if_pos hsum
  have helement : d.elementBytes u.buffer =
      ((d.buffer? u.buffer).map (·.elementBits / 8)).getD 4 := by
    unfold elementBytes
    cases d.buffer? u.buffer <;> rfl
  rw [gather, span?, hu, ← helement]
  simp only [hadd]
  cases u.slot <;> rfl

/-- The first buffer without an address ends the gathering; without one, each slot has the span of
the last transfer for it. -/
theorem Device.gather_eq
    (hsum : ∀ u ∈ ts.takeWhile fun u => (addresses u.buffer).isSome, ∀ base,
      addresses u.buffer = some base → base.toNat + u.offset.toNat < 0x10000000000000000)
    (a b : Option BufferSpan) : d.gather addresses ts a b =
      match ts.find? fun u => (addresses u.buffer).isNone with
      | some u => .unresolved u.buffer
      | none => .spans ((d.lastSpan? addresses ts .a).or a) ((d.lastSpan? addresses ts .b).or b) := by
  induction ts generalizing a b with
  | nil => rfl
  | cons u ts ih =>
    cases hu : addresses u.buffer with
    | none => simp only [gather, List.find?_cons, hu, Option.isNone_none]
    | some base =>
      rw [List.takeWhile_cons_of_pos (by rw [hu]; rfl), List.forall_mem_cons] at hsum
      rw [gather_cons_eq hu (hsum.1 base hu), ih hsum.2, List.find?_cons, hu, Option.isNone_some]
      cases hf : ts.find? fun u => (addresses u.buffer).isNone with
      | some v => rfl
      | none =>
        have hts := isSome_of_find?_isNone hf
        have hall : ∀ v ∈ u :: ts, (addresses v.buffer).isSome :=
          List.forall_mem_cons.mpr ⟨by rw [hu]; rfl, hts⟩
        -- the span of `u` counts in its slot until a later one is there
        have hslot : ∀ slot c, (d.lastSpan? addresses ts slot).or
            (if u.slot = slot then d.span? addresses u else c) =
              (d.lastSpan? addresses (u :: ts) slot).or c := by
          intro slot c
          rw [lastSpan?_eq_filterMap hts, lastSpan?_eq_filterMap hall, List.filterMap_cons]
          by_cases hs : u.slot = slot
          · rw [if_pos hs, if_pos hs, span?, hu, Option.map_some, List.getLast?_cons]
            cases (ts.filterMap fun v =>
              if v.slot = slot then d.span? addresses v else none).getLast? <;> rfl
          · rw [if_neg hs, if_neg hs]
        simp only [hslot]

end Transfers

/-! ## Locks -/

section Locks

variable {d : Device} {us : List LockUse}

def lastValue? (us : List LockUse) (action : LockAction) : Option UInt32 :=
  (us.filter fun u => u.action = action).getLast?.map LockUse.value

theorem Device.lockGuard_of_unknown {start : Option LockGuard} {u : LockUse}
    (h : us.find? (fun u => (d.lock? u.lock).isNone) = some u) :
    d.lockGuard us start = .error u.lock := by
  induction us generalizing start with
  | nil => cases h
  | cons v us ih =>
    rw [List.find?_cons] at h
    cases hv : d.lock? v.lock with
    | none =>
      rw [hv] at h
      cases h
      simp only [lockGuard, hv]
    | some lock =>
      rw [hv] at h
      simp only [lockGuard, hv]
      cases v.action <;> exact ih h

/-- Where all locks are known, the last use has the number of its lock in the guard, and for each
action the last use with it has its value there. -/
theorem Device.lockGuard_of_known (start : Option LockGuard)
    (h : ∀ u ∈ us, (d.lock? u.lock).isSome) :
    ∃ g, d.lockGuard us start = .ok g ∧
      g.map LockGuard.id =
        ((us.getLast?.bind fun u => d.lock? u.lock).map Lock.id).or (start.map LockGuard.id) ∧
      ∀ action, g.bind (·.value? action) =
        (lastValue? us action).or (start.bind (·.value? action)) := by
  induction us generalizing start with
  | nil => exact ⟨start, rfl, rfl, fun _ => rfl⟩
  | cons u us ih =>
    obtain ⟨hu, hus⟩ := List.forall_mem_cons.mp h
    obtain ⟨lock, hlock⟩ := Option.isSome_iff_exists.mp hu
    obtain ⟨k, hk, hid, hvalue, hkeep⟩ : ∃ k, d.lockGuard (u :: us) start =
        d.lockGuard us (some k) ∧ k.id = lock.id ∧ k.value? u.action = some u.value ∧
        ∀ action ≠ u.action, k.value? action = start.bind (·.value? action) := by
      rw [lockGuard, hlock]
      cases u.action with
      | acquire =>
        refine ⟨_, rfl, rfl, rfl, fun action hne => ?_⟩
        cases action with
        | acquire => exact absurd rfl hne
        | release => cases start <;> rfl
      | release =>
        refine ⟨_, rfl, rfl, rfl, fun action hne => ?_⟩
        cases action with
        | acquire => cases start <;> rfl
        | release => exact absurd rfl hne
    obtain ⟨g, hg, hgid, hgvalue⟩ := ih (some k) hus
    refine ⟨g, hk.trans hg, ?_, fun action => ?_⟩
    · rw [hgid, Option.map_some, hid, List.getLast?_cons]
      cases hl : us.getLast? with
      | none => simp [hlock]
      | some v =>
        obtain ⟨lock', hlock'⟩ := Option.isSome_iff_exists.mp (hus v (List.mem_of_getLast? hl))
        simp [hlock']
    · rw [hgvalue, Option.bind_some, lastValue?, lastValue?, List.filter_cons]
      by_cases ha : u.action = action
      · subst ha
        rw [hvalue, if_pos (decide_eq_true rfl), List.getLast?_cons]
        cases (us.filter fun v => v.action = u.action).getLast? <;> rfl
      · rw [hkeep action (Ne.symm ha), if_neg (by simpa using ha)]

end Locks

/-! ## Blocks -/

namespace DmaBlock

def lengthMismatch (t : TileId) (b : DmaBlock) (m n : UInt32) : Diagnostic :=
  ⟨.abMode, t, s!"block '{b.label}': AB mode needs matching lengths ({m} vs {n})"⟩

def elementMismatch (t : TileId) (b : DmaBlock) (m n : UInt32) : Diagnostic :=
  ⟨.abMode, t, s!"block '{b.label}': AB mode needs matching element types ({m} vs {n} bytes)"⟩

def mismatches (t : TileId) (b : DmaBlock) : Option BufferSpan → Option BufferSpan → List Diagnostic
  | some x, some y =>
    (if x.length = y.length then [] else [b.lengthMismatch t x.length y.length]) ++
      if x.elementBytes = y.elementBytes then []
      else [b.elementMismatch t x.elementBytes y.elementBytes]
  | _, _ => []

/-- The diagnostic for the first lock that is not declared. -/
def lockErrors (d : Device) (t : TileId) (b : DmaBlock) : List Diagnostic :=
  ((b.locks.find? fun u => (d.lock? u.lock).isNone).map fun u =>
    ⟨.contract, t, s!"block '{b.label}': unknown lock '{u.lock}'"⟩).toList

def lockWarnings (t : TileId) (b : DmaBlock) (second : Option BufferSpan) : List Diagnostic :=
  if second.isSome ∧ b.locks ≠ [] then
    [⟨.unimplemented, t,
      s!"block '{b.label}': locks on buffer B are not supported, B carries its address only"⟩]
  else []

/-- The descriptor of a block whose buffers all have addresses, and the diagnostics that come with
it, in their order. -/
structure Gathers (d : Device) (addresses : AddressSource) (t : TileId) (b : DmaBlock)
    (x : Descriptor) (ds : List Diagnostic) : Prop where
  resolved : ∀ u ∈ b.transfers, (addresses u.buffer).isSome
  /-- Each slot has the last transfer that is declared for it. -/
  slots : ∀ slot : BufferSlot, slot.pick x.a x.b =
    (b.transfers.filter fun u => u.slot = slot).getLast?.bind (d.span? addresses)
  abMode : x.abMode = true ↔ x.a.isSome ∧ x.b.isSome
  lock_eq_none : x.lock = none ↔ b.locks = [] ∨ ∃ u ∈ b.locks, d.lock? u.lock = none
  /-- The last use says which lock it is, and for each action the last use with it has the value. -/
  lock_eq_some : ∀ g, x.lock = some g →
    (∃ u lock, b.locks.getLast? = some u ∧ d.lock? u.lock = some lock ∧ g.id = lock.id) ∧
    ∀ action, g.value? action =
      (b.locks.filter fun u => u.action = action).getLast?.map LockUse.value
  packet : x.packet = b.packet
  fifoMode : x.fifoMode = false
  diagnostics : ds = b.mismatches t x.a x.b ++ b.lockErrors d t ++ b.lockWarnings t x.b

/-- What a block comes to: a descriptor or none, and the diagnostics. -/
inductive Describes (d : Device) (addresses : AddressSource) (t : TileId) (b : DmaBlock) :
    Option Descriptor → List Diagnostic → Prop where
  /-- There is nothing to transfer. -/
  | idle (transfers : b.transfers = []) : Describes d addresses t b none []
  /-- The first buffer without an address is reported, and nothing else. -/
  | unresolved {before after : List Transfer} {u : Transfer}
    (transfers : b.transfers = before ++ u :: after)
    (resolved : ∀ v ∈ before, (addresses v.buffer).isSome) (unknown : addresses u.buffer = none) :
    Describes d addresses t b none
      [⟨.contract, t, s!"block '{b.label}': buffer '{u.buffer}' has no address"⟩]
  | gathered {x : Descriptor} {ds : List Diagnostic} (transfers : b.transfers ≠ [])
    (gathers : b.Gathers d addresses t x ds) : Describes d addresses t b (some x) ds

theorem map_pairProblems (t : TileId) (b : DmaBlock) (x y : Option BufferSpan) :
    (pairProblems b.label x y).map (·.on t) = b.mismatches t x y := by
  cases x with
  | none => rfl
  | some x =>
    cases y with
    | none => rfl
    | some y =>
      rw [pairProblems, mismatches, List.map_append, ite_not, ite_not]
      split <;> split <;> rfl

section Lock

variable {d : Device} {b : DmaBlock} {second : Option BufferSpan}

theorem blockLock_of_locks (h : b.locks ≠ []) : d.blockLock b second =
    match d.lockGuard b.locks none with
    | .error name => (none, .unknownLock b.label name ::
        if second.isSome then [.lockOnB b.label] else [])
    | .ok lock => (lock, if second.isSome then [.lockOnB b.label] else []) := by
  unfold Device.blockLock
  exact if_neg (by simpa using h)

theorem map_lockOnB (t : TileId) (h : b.locks ≠ []) :
    (if second.isSome then [Problem.lockOnB b.label] else []).map (·.on t) =
      b.lockWarnings t second := by
  rw [lockWarnings]
  by_cases hs : second.isSome
  · rw [if_pos hs, if_pos ⟨hs, h⟩]
    rfl
  · rw [if_neg hs, if_neg fun hc => hs hc.1]
    rfl

/-- The diagnostics on locks: an unknown one, then locks on the second buffer. -/
theorem map_blockLock (d : Device) (t : TileId) (b : DmaBlock) (second : Option BufferSpan) :
    (d.blockLock b second).2.map (·.on t) = b.lockErrors d t ++ b.lockWarnings t second := by
  by_cases he : b.locks = []
  · simp [Device.blockLock, lockErrors, lockWarnings, he]
  · rw [blockLock_of_locks he, ← map_lockOnB t he, lockErrors]
    cases hf : b.locks.find? fun u => (d.lock? u.lock).isNone with
    | some u =>
      rw [Device.lockGuard_of_unknown hf]
      rfl
    | none =>
      obtain ⟨g, hg, -⟩ := Device.lockGuard_of_known none (isSome_of_find?_isNone hf)
      rw [hg]
      rfl

/-- A block has a lock when it uses some and knows them all. -/
theorem blockLock_eq_none_iff : (d.blockLock b second).1 = none ↔
    b.locks = [] ∨ ∃ u ∈ b.locks, d.lock? u.lock = none := by
  by_cases he : b.locks = []
  · simp [Device.blockLock, he]
  · rw [blockLock_of_locks he, or_iff_right he]
    cases hf : b.locks.find? fun u => (d.lock? u.lock).isNone with
    | some u =>
      rw [Device.lockGuard_of_unknown hf]
      have hu := List.find?_some hf
      exact iff_of_true rfl ⟨u, List.mem_of_find?_eq_some hf, Option.isNone_iff_eq_none.mp hu⟩
    | none =>
      have hknown := isSome_of_find?_isNone hf
      obtain ⟨g, hg, hid, -⟩ := Device.lockGuard_of_known none hknown
      rw [hg]
      refine iff_of_false (fun hnone => ?_) ?_
      · obtain ⟨u, hu⟩ := Option.isSome_iff_exists.mp (List.getLast?_isSome.mpr he)
        obtain ⟨lock, hlock⟩ := Option.isSome_iff_exists.mp (hknown u (List.mem_of_getLast? hu))
        rw [show g = none from hnone, hu] at hid
        simp [hlock] at hid
      · rintro ⟨u, hu, hnone⟩
        have := hknown u hu
        rw [hnone] at this
        cases this

theorem blockLock_eq_some {g : LockGuard} (h : (d.blockLock b second).1 = some g) :
    (∃ u lock, b.locks.getLast? = some u ∧ d.lock? u.lock = some lock ∧ g.id = lock.id) ∧
      ∀ action, g.value? action = lastValue? b.locks action := by
  have hno : ¬ (b.locks = [] ∨ ∃ u ∈ b.locks, d.lock? u.lock = none) := by
    rw [← blockLock_eq_none_iff, h]
    exact nofun
  obtain ⟨he, hall⟩ := not_or.mp hno
  have hknown : ∀ u ∈ b.locks, (d.lock? u.lock).isSome := fun u hu =>
    Option.isSome_iff_ne_none.mpr fun hnone => hall ⟨u, hu, hnone⟩
  obtain ⟨g', hg, hid, hvalue⟩ := Device.lockGuard_of_known none hknown
  rw [blockLock_of_locks he, hg] at h
  cases (h : g' = some g)
  constructor
  · obtain ⟨u, hu⟩ := Option.isSome_iff_exists.mp (List.getLast?_isSome.mpr he)
    obtain ⟨lock, hlock⟩ := Option.isSome_iff_exists.mp (hknown u (List.mem_of_getLast? hu))
    refine ⟨u, lock, hu, hlock, ?_⟩
    simpa [hu, hlock] using hid
  · intro action
    simpa using hvalue action

end Lock

theorem gathers_of_resolved {d : Device} {addresses : AddressSource} {t : TileId} {b : DmaBlock}
    (h : ∀ u ∈ b.transfers, (addresses u.buffer).isSome) {first second : Option BufferSpan}
    (hfirst : first = d.lastSpan? addresses b.transfers .a)
    (hsecond : second = d.lastSpan? addresses b.transfers .b) :
    b.Gathers d addresses t
      { a := first, b := second, lock := (d.blockLock b second).1, packet := b.packet,
        abMode := first.isSome && second.isSome }
      ((pairProblems b.label first second ++ (d.blockLock b second).2).map (·.on t)) where
  resolved := h
  slots slot := by
    cases slot with
    | a => exact hfirst
    | b => exact hsecond
  abMode := Bool.and_eq_true _ _ ▸ Iff.rfl
  lock_eq_none := blockLock_eq_none_iff
  lock_eq_some _ hg := blockLock_eq_some hg
  packet := rfl
  fifoMode := rfl
  diagnostics := by rw [List.map_append, map_pairProblems, map_blockLock, List.append_assoc]

end DmaBlock

/-- What a block comes to. It has no descriptor exactly when it has no transfers or a buffer of
theirs has no address; then at most that is reported. Otherwise the descriptor is the one that the
lists of the block say, and the diagnostics are those that its parts call for, in order. -/
theorem DmaBlock.describe_exact {d : Device} {addresses : AddressSource} {b : DmaBlock}
    (hsum : b.SumsFit addresses) (t : TileId) :
    ∃ x ds, (b.describe d addresses t).1 = x ∧
      (∀ p, Script.perform (b.describe d addresses t).2 p = .ok ⟨p.log, p.diagnostics ++ ds⟩) ∧
      b.Describes d addresses t x ds ∧
      (x = none ↔ b.transfers = [] ∨ ∃ u ∈ b.transfers, addresses u.buffer = none) := by
  by_cases he : b.transfers = []
  · have hdescribe : b.describe d addresses t = (none, []) := if_pos (by rw [he]; rfl)
    rw [hdescribe]
    exact ⟨none, [], rfl, Script.perform_reports t [], .idle he, iff_of_true rfl (.inl he)⟩
  · have hgather := Device.gather_eq (d := d) hsum none none
    cases hf : b.transfers.find? fun u => (addresses u.buffer).isNone with
    | some u =>
      rw [hf] at hgather
      have hdescribe : b.describe d addresses t =
          (none, [Problem.unresolvedBuffer b.label u.buffer].map (Step.report t)) := by
        rw [describe, if_neg (by simpa using he), hgather]
        rfl
      obtain ⟨hu, before, after, hsplit, hbefore⟩ := List.find?_eq_some_iff_append.mp hf
      have hu : addresses u.buffer = none := Option.isNone_iff_eq_none.mp hu
      rw [hdescribe]
      refine ⟨none, _, rfl, Script.perform_reports t _, .unresolved hsplit ?_ hu, ?_⟩
      · intro v hv
        simpa [Option.isSome_iff_ne_none] using hbefore v hv
      · exact iff_of_true rfl (.inr ⟨u, List.mem_of_find?_eq_some hf, hu⟩)
    | none =>
      rw [hf] at hgather
      simp only [Option.or_none] at hgather
      have hall := isSome_of_find?_isNone hf
      have hgathers := gathers_of_resolved (d := d) (t := t) hall rfl rfl
      rw [describe, if_neg (by simpa using he), hgather]
      refine ⟨_, _, rfl, Script.perform_reports t _, .gathered he hgathers, ?_⟩
      refine iff_of_false (Option.some_ne_none _) ?_
      rintro (hnil | ⟨u, hu, hnone⟩)
      · exact he hnil
      · have := hall u hu
        rw [hnone] at this
        cases this

def lockedPair : Device where
  schemaVersion := "1.0"
  name := "locked"
  arrayOffset := 0
  tiles := [⟨3, 1, none, none⟩]
  buffers := [⟨"in", 3, 1, some 0x1000, 32⟩, ⟨"wide", 3, 1, some 0x2000, 64⟩]
  locks := [⟨"empty", 3, 1, 3⟩, ⟨"full", 3, 1, 5⟩]
  memories := []
  switchboxes := []
  shimMuxes := []

/-- Addresses from outside: a buffer that is not declared has one, too. -/
def outsideAddresses : AddressSource := fun buffer =>
  if buffer = "far" then some 0x9000 else lockedPair.addressOf? buffer

def contestedBlock : DmaBlock where
  label := "pair"
  transfers := [⟨"in", .a, 0, 16⟩, ⟨"wide", .b, 8, 8⟩, ⟨"far", .a, 4, 32⟩]
  locks := [⟨"empty", .acquire, 1⟩, ⟨"full", .release, 0⟩, ⟨"full", .acquire, 0⟩]
  packet := some ⟨4, 1⟩
  next := none

theorem contestedBlock_described : ∃ t, TileId.at? 0 3 1 = .ok t ∧
    contestedBlock.SumsFit outsideAddresses ∧
    ∃ x ds, (contestedBlock.describe lockedPair outsideAddresses t).1 = some x ∧
      (∀ p, Script.perform (contestedBlock.describe lockedPair outsideAddresses t).2 p =
        .ok ⟨p.log, p.diagnostics ++ ds⟩) ∧
      x.a = some ⟨0x9004, 32, 4⟩ ∧ x.b = some ⟨0x2008, 8, 8⟩ ∧ x.abMode = true ∧
      (∃ g, x.lock = some g ∧ g.id = 5 ∧ g.acquire = some 0 ∧ g.release = some 0) ∧
      ds = [contestedBlock.lengthMismatch t 32 8, contestedBlock.elementMismatch t 4 8,
        ⟨.unimplemented, t, "block 'pair': locks on buffer B are not supported, " ++
          "B carries its address only"⟩] := by
  let t : TileId := ⟨0, 3, 1, by decide, by decide, by decide⟩
  have hsum : contestedBlock.SumsFit outsideAddresses := by
    have hall : ∀ u ∈ contestedBlock.transfers,
        ((outsideAddresses u.buffer).getD 0).toNat + u.offset.toNat < 0x10000000000000000 := by
      decide
    intro u hu base hbase
    have := hall u ((List.takeWhile_sublist _).mem hu)
    rwa [hbase] at this
  obtain ⟨x, ds, hx, hrun, hdescribes, hnone⟩ :=
    DmaBlock.describe_exact (d := lockedPair) hsum t
  cases hdescribes with
  | idle => exact absurd (hnone.mp rfl) (by decide)
  | unresolved => exact absurd (hnone.mp rfl) (by decide)
  | @gathered x ds _ h =>
    have ha : x.a = some ⟨0x9004, 32, 4⟩ := h.slots .a
    have hb : x.b = some ⟨0x2008, 8, 8⟩ := h.slots .b
    refine ⟨t, rfl, hsum, x, ds, hx, hrun, ha, hb, ?_, ?_, ?_⟩
    · exact h.abMode.mpr ⟨by rw [ha]; rfl, by rw [hb]; rfl⟩
    · obtain ⟨g, hg⟩ := Option.ne_none_iff_exists'.mp fun hl =>
        absurd (h.lock_eq_none.mp hl) (by decide)
      obtain ⟨⟨u, lock, hu, hlock, hid⟩, hvalue⟩ := h.lock_eq_some g hg
      cases hu
      cases hlock
      exact ⟨g, hg, hid, hvalue .acquire, hvalue .release⟩
    · rw [h.diagnostics, ha, hb]
      rfl

end ArrayImage
