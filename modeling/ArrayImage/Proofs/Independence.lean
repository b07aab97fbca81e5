import ArrayImage.Proofs.Ports
import ArrayImage.Proofs.Programming
import ArrayImage.Proofs.Stepwise

/-!
# ArrayImage.Proofs.Independence

The stream phase and the DMA phase do not get in each other's way.

Two writes to different registers can change places (`WriteLog.apply_comm`), and so can two scripts
of which no register is written by both (`Script.applyTo_comm`). That is so for the two phases of
any design, valid or not, since each has places of its own in the window of a tile
(`Write.IsStream`, `Write.IsDma`). Only bits that are turned on depend on what a register held before
(`Script.Reads`), and the DMA phase turns none on.
-/

namespace ArrayImage

open RegisterMap

/-! ## Writes that can change places -/

namespace WriteLog

/-- Two writes to different registers can be made in either order. -/
theorem apply_comm {v w : Write} (h : v.address ≠ w.address) (log : WriteLog) :
    (log.apply v).apply w = (log.apply w).apply v := by
  refine ext_get? fun a => ?_
  simp only [get?_apply]
  by_cases hv : v.address = a
  · have hw : w.address ≠ a := fun hw => h (hv.trans hw.symm)
    simp only [if_pos hv, if_neg hw]
  · simp only [if_neg hv]

theorem applyAll_apply_comm {v : Write} {ws : List Write} (h : ∀ w ∈ ws, v.address ≠ w.address)
    (log : WriteLog) : (log.apply v).applyAll ws = (log.applyAll ws).apply v := by
  induction ws generalizing log with
  | nil => rfl
  | cons w ws ih =>
    rw [applyAll_cons, applyAll_cons, apply_comm (h w List.mem_cons_self),
      ih fun x hx => h x (List.mem_cons_of_mem _ hx)]

theorem applyAll_comm {vs ws : List Write} (h : ∀ v ∈ vs, ∀ w ∈ ws, v.address ≠ w.address)
    (log : WriteLog) : (log.applyAll vs).applyAll ws = (log.applyAll ws).applyAll vs := by
  induction vs generalizing log with
  | nil => rfl
  | cons v vs ih =>
    rw [applyAll_cons, applyAll_cons, ih fun x hx => h x (List.mem_cons_of_mem _ hx),
      applyAll_apply_comm (h v List.mem_cons_self)]

end WriteLog

namespace Script

/-- Some write keeps bits of what is at `a` before it. -/
def Reads (s : Script) (a : Nat) : Prop :=
  ∃ w bits, .write w ∈ s ∧ w.address = a ∧ w.update = .raise bits

theorem Reads.touches {s : Script} {a : Nat} (h : s.Reads a) : s.Touches a := by
  obtain ⟨w, bits, hw, ha, -⟩ := h
  exact ⟨w, hw, ha⟩

/-- Scripts that write different registers can be run in either order. -/
theorem applyTo_comm {s s' : Script} (hs : s.Completes) (hs' : s'.Completes)
    (h : ∀ a, s.Touches a → ¬ s'.Touches a) (log : WriteLog) :
    s'.applyTo (s.applyTo log) = s.applyTo (s'.applyTo log) := by
  refine WriteLog.applyAll_comm (fun v hv w hw he => ?_) log
  exact h v.address ⟨v, (mem_writes_iff hs).mp hv, rfl⟩
    ⟨w, (mem_writes_iff hs').mp hw, he.symm⟩

/-- Scripts whose writes go to different places in the windows write different registers. -/
theorem not_touches_of_offset_ne {P Q : Write → Prop} {s s' : Script} (hs : AllWrites P s)
    (hs' : AllWrites Q s') (h : ∀ v w, P v → Q w → v.register.offset ≠ w.register.offset) {a : Nat}
    (ha : s.Touches a) : ¬ s'.Touches a := by
  obtain ⟨v, hv, rfl⟩ := ha
  rintro ⟨w, hw, he⟩
  exact h v w (hs v hv) (hs' w hw) (congrArg Register.offset (Register.address_inj.mp he)).symm

end Script

/-! ## The places of the two phases -/

namespace Write

/-- A write of a word to a register of a switch, or of bits to one of a mux. -/
def IsStream (w : Write) : Prop :=
  w.IsRoute ∨ w.IsMux

/-- A write of a word to a channel or a descriptor. -/
def IsDma (w : Write) : Prop :=
  w.IsChannel ∨ w.IsDescriptor

theorem IsDma.offset_lt {w : Write} (h : w.IsDma) : w.register.offset < shimMux := by
  rw [shimMux]
  rcases h with ⟨ho, -⟩ | ⟨ho, -⟩
  · have := ho.bounds
    omega
  · have := ho.bounds
    omega

theorem IsStream.le_offset {w : Write} (h : w.IsStream) : shimMux ≤ w.register.offset := by
  rcases h with ⟨ho, -⟩ | ⟨ho | ho, -⟩
  · exact Nat.le_trans (by decide) ho.masterBase_le.1
  · exact Nat.le_of_eq ho.symm
  · exact Nat.le_trans (by decide) (Nat.le_of_eq ho.symm)

theorem IsDma.update_eq {w : Write} (h : w.IsDma) : ∃ v, w.update = .put v := by
  rcases h with ⟨-, hu⟩ | ⟨-, hu⟩
  · exact hu
  · exact hu

end Write

namespace Device

variable (d : Device) (addresses : AddressSource)

theorem isStream_streamSteps : Script.AllWrites Write.IsStream d.streamSteps := by
  rw [streamSteps_eq, Script.allWrites_append]
  exact ⟨fun w hw => .inl (d.isRoute_switchSteps w hw), fun w hw => .inr (d.isMux_muxSteps w hw)⟩

theorem isDma_dmaSteps : Script.AllWrites Write.IsDma (d.dmaSteps addresses) :=
  fun _ hw => (writes_dmaSteps hw).2

/-- The DMA phase reads nothing. -/
theorem not_reads_dmaSteps (a : Nat) : ¬ (d.dmaSteps addresses).Reads a := by
  rintro ⟨w, bits, hw, -, hu⟩
  obtain ⟨v, hv⟩ := (d.isDma_dmaSteps addresses w hw).update_eq
  rw [hu] at hv
  cases hv

/-- No register is written by both phases. -/
theorem not_touches_dmaSteps {a : Nat} (h : d.streamSteps.Touches a) :
    ¬ (d.dmaSteps addresses).Touches a := by
  refine Script.not_touches_of_offset_ne d.isStream_streamSteps (d.isDma_dmaSteps addresses) ?_ h
  intro v w hv hw he
  have hle := hv.le_offset
  have hlt := hw.offset_lt
  omega

/-! ## The phases in either order -/

/-- No register is written by one phase and written or read by the other. -/
structure PhasesApart : Prop where
  streams : ∀ a, d.streamSteps.Touches a →
    ¬ (d.dmaSteps addresses).Touches a ∧ ¬ (d.dmaSteps addresses).Reads a
  programs : ∀ a, (d.dmaSteps addresses).Touches a →
    ¬ d.streamSteps.Touches a ∧ ¬ d.streamSteps.Reads a

theorem phasesApart : d.PhasesApart addresses where
  streams a h := ⟨d.not_touches_dmaSteps addresses h, d.not_reads_dmaSteps addresses a⟩
  programs a h := by
    have hnot : ¬ d.streamSteps.Touches a := fun hs => d.not_touches_dmaSteps addresses hs h
    exact ⟨hnot, fun hr => hnot hr.touches⟩

variable {d addresses}

/-- Stream switches and DMA programs can be configured in either order, from any registers on:
the registers are the same in the end, and each phase reports what it reports first. -/
theorem phases_commute {log streamLog dmaLog : WriteLog} {streams programs : List Diagnostic}
    (hs : d.streamSteps.perform (.start log) = .ok ⟨streamLog, streams⟩)
    (hd : (d.dmaSteps addresses).perform (.start log) = .ok ⟨dmaLog, programs⟩) :
    d.PhasesApart addresses ∧ ∃ log', ∀ before,
      (d.dmaSteps addresses).perform ⟨streamLog, before⟩ = .ok ⟨log', before ++ programs⟩ ∧
      d.streamSteps.perform ⟨dmaLog, before⟩ = .ok ⟨log', before ++ streams⟩ := by
  obtain ⟨hsc, rfl, rfl⟩ := Script.perform_eq_ok_iff.mp hs
  obtain ⟨hdc, rfl, rfl⟩ := Script.perform_eq_ok_iff.mp hd
  have hcomm := Script.applyTo_comm hsc hdc (fun a h => d.not_touches_dmaSteps addresses h) log
  refine ⟨d.phasesApart addresses, (d.dmaSteps addresses).applyTo (d.streamSteps.applyTo log), ?_⟩
  intro before
  constructor
  · exact Script.perform_eq_ok_iff.mpr ⟨hdc, rfl, rfl⟩
  · exact Script.perform_eq_ok_iff.mpr ⟨hsc, hcomm, rfl⟩

/-- A design that breaks many rules: its tile is not declared, one route and one channel do not
exist, and a core tile has a shim mux. -/
def unruly : Device where
  schemaVersion := "1.0"
  name := "unruly"
  arrayOffset := 1
  tiles := []
  buffers := [⟨"in", 3, 1, some 0x1000, 32⟩]
  locks := []
  memories :=
    [⟨3, 1, [⟨"fill", [⟨"in", .a, 0, 16⟩], [], none, some "fill"⟩],
      [⟨.s2mm, 0, "fill"⟩, ⟨.mm2s, 7, "fill"⟩]⟩]
  switchboxes := [⟨3, 1, [⟨⟨.dma, 0⟩, ⟨.east, 1⟩⟩, ⟨⟨.core, 0⟩, ⟨.east, 2⟩⟩], [], [], []⟩]
  shimMuxes := [⟨3, 1, [⟨⟨.north, 3⟩, ⟨.dma, 0⟩⟩, ⟨⟨.dma, 1⟩, ⟨.north, 7⟩⟩]⟩]

theorem unruly_commutes : unruly.issues ≠ [] ∧
    ∃ t w streamLog dmaLog streams programs, TileId.at? 1 3 1 = .ok t ∧
      Write.at? t shimMux (.put 0x500) = .ok w ∧
      unruly.streamSteps.perform (.start (WriteLog.empty.apply w)) = .ok ⟨streamLog, streams⟩ ∧
      (unruly.dmaSteps unruly.addressOf?).perform (.start (WriteLog.empty.apply w)) =
        .ok ⟨dmaLog, programs⟩ ∧
      streams.length = 1 ∧ programs.length = 1 ∧ streamLog.get? w.address = some 0x4500 ∧
      unruly.PhasesApart unruly.addressOf? ∧ ∃ log', ∀ before,
        (unruly.dmaSteps unruly.addressOf?).perform ⟨streamLog, before⟩ =
          .ok ⟨log', before ++ programs⟩ ∧
        unruly.streamSteps.perform ⟨dmaLog, before⟩ = .ok ⟨log', before ++ streams⟩ := by
  -- Some bits of the mux are there before.
  let w : Write := ⟨⟨⟨1, 3, 1, by decide, by decide, by decide⟩, shimMux, by decide⟩, .put 0x500,
    by decide⟩
  have hs : unruly.streamSteps.Completes := by
    unfold Script.Completes
    decide +kernel
  have hd : (unruly.dmaSteps unruly.addressOf?).Completes := by
    unfold Script.Completes
    decide +kernel
  have hs' := Script.perform_eq_ok_iff.mpr
    ⟨hs, Eq.refl (unruly.streamSteps.applyTo (WriteLog.empty.apply w)),
      Eq.refl ([] ++ unruly.streamSteps.diagnostics)⟩
  have hd' := Script.perform_eq_ok_iff.mpr
    ⟨hd, Eq.refl ((unruly.dmaSteps unruly.addressOf?).applyTo (WriteLog.empty.apply w)),
      Eq.refl ([] ++ (unruly.dmaSteps unruly.addressOf?).diagnostics)⟩
  have hissues : unruly.issues ≠ [] := by decide +kernel
  have hstreams : ([] ++ unruly.streamSteps.diagnostics).length = 1 := by decide +kernel
  have hprograms : ([] ++ (unruly.dmaSteps unruly.addressOf?).diagnostics).length = 1 := by
    decide +kernel
  have hmux : (unruly.streamSteps.applyTo (WriteLog.empty.apply w)).get? w.address =
      some 0x4500 := by
    rw [Script.applyTo, WriteLog.get?_applyAll, WriteLog.get?_apply, if_pos rfl]
    decide +kernel
  exact ⟨hissues, _, w, _, _, _, _, rfl, rfl, hs', hd', hstreams, hprograms, hmux,
    phases_commute hs' hd'⟩

end Device
end ArrayImage
