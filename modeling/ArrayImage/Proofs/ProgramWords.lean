import ArrayImage.Proofs.Containment
import ArrayImage.Proofs.Lists
import ArrayImage.Proofs.Stepwise
import Mathlib.Data.List.Basic

/-!
# ArrayImage.Proofs.ProgramWords

The words that a program leaves in the window of its tile.

A program is loaded as a whole or not at all (`ProgramImage.load_eq`). The first segment that ends
behind the window speaks for a program that is refused, and then no register changes. Of an accepted
program every word of every segment is written, in the order of the segments: where some of them
overlap, the last one is seen (`ProgramImage.Loaded`). What a segment has at a place is read off its
bytes, with zeros behind the last one (`Segment.wordFor`).
-/

namespace ArrayImage

open RegisterMap

/-! ## Bytes as words -/

/-- The word of the four bytes from `k` on; bytes past the end are zero. -/
def wordFrom (data : List UInt8) (k : Nat) : Word :=
  wordOfBytes (data.getD k 0) (data.getD (k + 1) 0) (data.getD (k + 2) 0) (data.getD (k + 3) 0)

theorem wordFrom_cons (b0 b1 b2 b3 : UInt8) (rest : List UInt8) (k : Nat) :
    wordFrom (b0 :: b1 :: b2 :: b3 :: rest) (k + 4) = wordFrom rest k := rfl

theorem getElem?_wordsOfBytes (data : List UInt8) (i : Nat) : (wordsOfBytes data)[i]? =
    if i < (data.length + 3) / 4 then some (wordFrom data (4 * i)) else none := by
  fun_induction wordsOfBytes data generalizing i with
  | case1 b0 b1 b2 b3 rest ih =>
    cases i with
    | zero =>
      rw [if_pos (by simp only [List.length_cons]; omega)]
      rfl
    | succ i =>
      rw [List.getElem?_cons_succ, ih, Nat.mul_succ, wordFrom_cons]
      simp only [List.length_cons]
      split
      · rw [if_pos (by omega)]
      · rw [if_neg (by omega)]
  | case2 | case3 | case4 =>
    cases i with
    | zero => rw [if_pos (by simp)]; rfl
    | succ i => rw [if_neg (by simp only [List.length_cons, List.length_nil]; omega)]; rfl
  | case5 => rw [if_neg (by simp only [List.length_nil]; omega)]; rfl

/-! ## One segment -/

namespace Segment

/-- The place of the first word in the window. -/
def home (s : Segment) : Nat :=
  s.memory.base + s.start

/-- The place behind the last word. -/
def limit (s : Segment) : Nat :=
  s.home + 4 * s.wordCount

/-- Where a segment starts and ends can be computed in 64 bits. -/
def SumsFit (s : Segment) : Prop :=
  s.limit < 0x10000000000000000

/-- One of the words has the place `o`. -/
def Covers (s : Segment) (o : Nat) : Prop :=
  ∃ i < s.wordCount, o = s.home + 4 * i

instance (s : Segment) (o : Nat) : Decidable (s.Covers o) :=
  inferInstanceAs (Decidable (∃ i < s.wordCount, o = s.home + 4 * i))

def wordFor (s : Segment) (o : Nat) : Word :=
  wordFrom s.data (o - s.home)

def outOfWindow (s : Segment) : LoadError :=
  .outOfWindow s.address.toNat s.home s.data.length

variable {s : Segment}

theorem destination_of_sumsFit (h : s.SumsFit) : s.destination = .ok s.home := by
  unfold SumsFit limit home memory start at h
  unfold destination home memory start
  split
  · rename_i hx
    rw [if_pos hx] at h
    exact if_pos (by simp only [if_pos hx] at h; rw [Nat.one_shiftLeft]; omega)
  · rfl

/-- The window takes a segment that ends in it. -/
theorem verdict_of_sumsFit (h : s.SumsFit) :
    s.verdict = if windowSize < s.limit then .rejected s.outOfWindow else .fits := by
  have hlast : checkedAdd 64 s.home (4 * s.wordCount) = .ok s.limit :=
    if_pos (by rw [Nat.one_shiftLeft]; exact h)
  unfold verdict
  simp only [destination_of_sumsFit h, hlast]
  by_cases hle : s.limit ≤ windowSize
  · rw [if_pos hle, if_neg (Nat.not_lt.mpr hle)]
  · rw [if_neg hle, if_pos (Nat.lt_of_not_le hle)]
    rfl

theorem placeSteps_of_sumsFit (t : TileId) (h : s.SumsFit) : s.placeSteps t =
    (wordsOfBytes s.data).zipIdx.map fun x => Step.put t (s.home + 4 * x.2) (.put x.1) := by
  simp only [placeSteps, destination_of_sumsFit h, List.mapIdx_eq_zipIdx_map]

/-- Each word is put once, so a place holds the word that goes there. -/
theorem lastWord?_placeSteps {t : TileId} (h : s.SumsFit) (hs : (s.placeSteps t).Completes)
    {o : Nat} (ho : o < windowSize) : (s.placeSteps t).lastWord? (t.address o) =
      if s.Covers o then some (s.wordFor o) else none := by
  rw [placeSteps_of_sumsFit t h] at hs ⊢
  have hput : ∀ x ∈ (wordsOfBytes s.data).zipIdx,
      (Step.put t (s.home + 4 * x.2) (.put x.1)).wordAt? (t.address o) =
        if s.home + 4 * x.2 = o then some x.1 else none := fun x hx =>
    Step.wordAt?_put_address (Script.completes_iff.mp hs _ (List.mem_map_of_mem hx)) ho
  rw [Script.lastWord?, List.filterMap_map]
  by_cases hplace : ∃ k, o = s.home + 4 * k
  · obtain ⟨k, rfl⟩ := hplace
    have hk : s.Covers (s.home + 4 * k) ↔ k < s.wordCount := by
      constructor
      · rintro ⟨i, hi, he⟩
        omega
      · intro hk
        exact ⟨k, hk, rfl⟩
    have hcongr : (wordsOfBytes s.data).zipIdx.filterMap
          (Step.wordAt? (t.address (s.home + 4 * k)) ∘
            fun x => Step.put t (s.home + 4 * x.2) (.put x.1)) =
        (wordsOfBytes s.data).zipIdx.filterMap fun x => if x.2 = 0 + k then some x.1 else none := by
      refine List.filterMap_congr fun x hx => ?_
      rw [Function.comp_apply, hput x hx]
      by_cases he : x.2 = k
      · rw [if_pos (by rw [he]), if_pos (by omega)]
      · rw [if_neg (by omega), if_neg (by omega)]
    rw [hcongr, getLast?_filterMap_zipIdx some, Option.bind_fun_some, getElem?_wordsOfBytes,
      wordFor, Nat.add_sub_cancel_left, ← wordCount]
    simp only [hk]
  · have hnot : ¬ s.Covers o := by
      rintro ⟨i, -, he⟩
      exact hplace ⟨i, he⟩
    rw [if_neg hnot, List.filterMap_eq_nil_iff.mpr, List.getLast?_nil]
    intro x hx
    rw [Function.comp_apply, hput x hx, if_neg fun he => hplace ⟨x.2, he.symm⟩]

/-- As many words are written as the segment has. -/
theorem length_writes_placeSteps {t : TileId} (h : s.SumsFit) (hs : (s.placeSteps t).Completes) :
    (s.placeSteps t).writes.length = s.wordCount := by
  have hall : ∀ x ∈ s.placeSteps t, x.write?.isSome := by
    intro x hx
    have hstop := Script.completes_iff.mp hs x hx
    rw [placeSteps_of_sumsFit t h] at hx
    obtain ⟨y, -, rfl⟩ := List.mem_map.mp hx
    obtain ⟨hc, ho⟩ := Step.stop?_put_eq_none_iff.mp hstop
    rw [Step.put_eq_write _ hc ho]
    rfl
  rw [hs.writes_eq, List.filterMap_length_eq_length.mpr hall, placeSteps_of_sumsFit t h,
    List.length_map, List.length_zipIdx, length_wordsOfBytes, wordCount]

end Segment

/-! ## A program -/

namespace ProgramImage

/-- Load a program: what comes of it, the number of words or the error, and the registers then. -/
def load (t : TileId) (p : ProgramImage) (log : WriteLog) :
    Except Stop (Except LoadError Nat × WriteLog) :=
  match p.placeSteps t with
  | .error e => .ok (.error e, log)
  | .ok steps => (steps.perform (.start log)).map fun q => (.ok steps.writes.length, q.log)

/-- The registers after a program is loaded on `t`. -/
structure Loaded (t : TileId) (p : ProgramImage) (log log' : WriteLog) : Prop where
  /-- A place in the window holds the word of the last segment that has one for it. -/
  window : ∀ o < windowSize, log'.get? (t.address o) =
    match (p.segments.filter fun s => s.Covers o).getLast? with
    | some s => some (s.wordFor o)
    | none => log.get? (t.address o)
  /-- Nothing else changes. -/
  others : ∀ a, (∀ o < windowSize, a ≠ t.address o) → log'.get? a = log.get? a

variable {t : TileId} {p : ProgramImage}

/-- The first segment that ends behind the window decides. -/
theorem verdict_eq_find? (hsums : ∀ s ∈ p.segments, s.SumsFit) : p.verdict =
    match p.segments.find? fun s => windowSize < s.limit with
    | some s => .rejected s.outOfWindow
    | none => .fits := by
  obtain ⟨segments⟩ := p
  rw [verdict]
  induction segments with
  | nil => rfl
  | cons s rest ih =>
    rw [verdict.go, Segment.verdict_of_sumsFit (hsums s List.mem_cons_self), List.find?_cons]
    by_cases hs : windowSize < s.limit
    · simp only [if_pos hs, decide_eq_true hs]
    · simp only [if_neg hs, decide_eq_false hs]
      exact ih fun r hr => hsums r (List.mem_cons_of_mem _ hr)

theorem completes_segments (hc : 0 < t.column) (hfit : ∀ s ∈ p.segments, s.verdict = .fits) :
    Script.Completes (p.segments.flatMap (Segment.placeSteps t)) :=
  Script.completes_flatMap.mpr fun s hs => Segment.completes_placeSteps hc (hfit s hs)

theorem length_writes_segments (hsums : ∀ s ∈ p.segments, s.SumsFit)
    (hs : Script.Completes (p.segments.flatMap (Segment.placeSteps t))) :
    (Script.writes (p.segments.flatMap (Segment.placeSteps t))).length = p.wordCount := by
  obtain ⟨segments⟩ := p
  rw [wordCount]
  induction segments with
  | nil => rfl
  | cons s rest ih =>
    have hrest := ih (fun r hr => hsums r (List.mem_cons_of_mem _ hr))
    rw [List.flatMap_cons] at hs ⊢
    obtain ⟨hcs, hcr⟩ := Script.completes_append.mp hs
    rw [hs.writes_eq, List.filterMap_append, List.length_append, ← hcs.writes_eq,
      ← hcr.writes_eq, hrest hcr,
      Segment.length_writes_placeSteps (hsums s List.mem_cons_self) hcs]
    rfl

theorem loaded_segments (hsums : ∀ s ∈ p.segments, s.SumsFit)
    (hs : Script.Completes (p.segments.flatMap (Segment.placeSteps t))) (log : WriteLog) :
    p.Loaded t log (Script.applyTo (p.segments.flatMap (Segment.placeSteps t)) log) where
  window o ho := by
    have hlast : Script.lastWord? (p.segments.flatMap (Segment.placeSteps t)) (t.address o) =
        (p.segments.filter fun s => s.Covers o).getLast?.bind
          fun s => if s.Covers o then some (s.wordFor o) else none := by
      rw [Script.lastWord?_flatMap fun s hm => Segment.lastWord?_placeSteps (hsums s hm)
        (Script.completes_flatMap.mp hs s hm) ho]
      refine getLast?_filterMap_of_isSome fun s _ => ?_
      by_cases hcov : s.Covers o
      · rw [if_pos hcov, decide_eq_true hcov]
        rfl
      · rw [if_neg hcov, decide_eq_false hcov]
        rfl
    rw [Script.get?_applyTo_of_puts hs, hlast]
    · cases hl : (p.segments.filter fun s => s.Covers o).getLast? with
      | none => rfl
      | some s =>
        have hcov : s.Covers o :=
          of_decide_eq_true (List.mem_filter.mp (List.mem_of_getLast? hl)).2
        rw [Option.bind_some, if_pos hcov]
        rfl
    · intro w hw _
      obtain ⟨s, -, hws⟩ := List.mem_flatMap.mp hw
      exact (s.allWrites_placeSteps t w hws).2.2
  others a ha := by
    refine Script.get?_applyTo_of_not_written hs fun w hw he => ?_
    obtain ⟨s, -, hws⟩ := List.mem_flatMap.mp hw
    have htile := (s.allWrites_placeSteps t w hws).1
    exact ha w.register.offset w.register.offset_lt
      (by rw [← he, Write.address, Register.address, htile])

/-- Loading is all or nothing. A program of which a segment ends behind the window is refused for
the first such segment, and no register changes; of every other program all words are written. -/
theorem load_eq (hc : 0 < t.column) (hsums : ∀ s ∈ p.segments, s.SumsFit) (log : WriteLog) :
    match p.segments.find? fun s => windowSize < s.limit with
    | some s => p.load t log =
        .ok (.error (.outOfWindow s.address.toNat s.home s.data.length), log)
    | none => ∃ log', p.load t log = .ok (.ok p.wordCount, log') ∧ p.Loaded t log log' := by
  have hverdict := verdict_eq_find? hsums
  cases hf : p.segments.find? fun s => windowSize < s.limit with
  | some s =>
    rw [hf] at hverdict
    simp only [load, placeSteps, hverdict]
    rfl
  | none =>
    rw [hf] at hverdict
    have hs := completes_segments hc (verdict_eq_fits hverdict)
    refine ⟨_, ?_, loaded_segments hsums hs log⟩
    have hrun := Script.perform_eq_ok_iff.mpr
      ⟨hs, Eq.refl (Script.applyTo (p.segments.flatMap (Segment.placeSteps t)) log),
        Eq.refl ([] ++ Script.diagnostics (p.segments.flatMap (Segment.placeSteps t)))⟩
    simp only [load, placeSteps, hverdict, Progress.start, hrun, Except.map,
      length_writes_segments hsums hs]

/-- Segments of all sorts: the second one lies over half of the first one and ends in a part of a
word, the third one is empty, the fourth one is wrapped, the last one has the last word of the
window. -/
def overlapping : ProgramImage where
  segments :=
    [⟨0x10, true, [0x01, 0x02, 0x03, 0x04, 0x05, 0x06, 0x07, 0x08]⟩,
      ⟨0x14, true, [0xAA, 0xBB, 0xCC, 0xDD, 0xEE]⟩, ⟨0x14, true, []⟩, ⟨0x78004, false, [0x11]⟩,
      ⟨0x1FFFC, true, [0x09, 0x09, 0x09, 0x09]⟩]

def overhanging : ProgramImage where
  segments := [⟨0, true, [0x01, 0x02, 0x03, 0x04]⟩, ⟨0x1FFFD, true, [0x01]⟩]

theorem overlapping_loaded : ∃ t w, TileId.at? 1 3 2 = .ok t ∧
    Write.at? t 0x8 (.put 0x77) = .ok w ∧ 0 < t.column ∧
    (∀ s ∈ overlapping.segments, s.SumsFit) ∧ (∀ s ∈ overhanging.segments, s.SumsFit) ∧
    (∃ log', overlapping.load t (WriteLog.empty.apply w) = .ok (.ok 6, log') ∧
      overlapping.Loaded t (WriteLog.empty.apply w) log' ∧
      log'.get? (t.address 0x20010) = some 0x04030201 ∧
      log'.get? (t.address 0x20014) = some 0xDDCCBBAA ∧
      log'.get? (t.address 0x20018) = some 0x000000EE ∧
      log'.get? (t.address 0x4) = some 0x11 ∧
      log'.get? (t.address 0x3FFFC) = some 0x09090909 ∧
      log'.get? (t.address 0x8) = some 0x77) ∧
    overhanging.load t (WriteLog.empty.apply w) =
      .ok (.error (.outOfWindow 0x1FFFD 0x3FFFD 1), WriteLog.empty.apply w) := by
  let t : TileId := ⟨1, 3, 2, by decide, by decide, by decide⟩
  let w : Write := ⟨⟨t, 0x8, by decide⟩, .put 0x77, by decide⟩
  let log := WriteLog.empty.apply w
  have hsums : ∀ s ∈ overlapping.segments, s.SumsFit := by
    simp only [Segment.SumsFit]
    decide
  have hsums' : ∀ s ∈ overhanging.segments, s.SumsFit := by
    simp only [Segment.SumsFit]
    decide
  have hnone : overlapping.segments.find? (fun s => windowSize < s.limit) = none := by decide
  have hsome : overhanging.segments.find? (fun s => windowSize < s.limit) =
      some ⟨0x1FFFD, true, [0x01]⟩ := by rfl
  have hload := load_eq (t := t) (by decide) hsums log
  have hrefused := load_eq (t := t) (by decide) hsums' log
  rw [hnone] at hload
  rw [hsome] at hrefused
  obtain ⟨log', hlog, hl⟩ := hload
  refine ⟨t, w, rfl, rfl, by decide, hsums, hsums', ⟨log', hlog, hl, ?_⟩, hrefused⟩
  refine ⟨(hl.window 0x20010 (by decide)).trans (by rfl),
    (hl.window 0x20014 (by decide)).trans (by rfl), (hl.window 0x20018 (by decide)).trans (by rfl),
    (hl.window 0x4 (by decide)).trans (by rfl), (hl.window 0x3FFFC (by decide)).trans (by rfl), ?_⟩
  have hold := hl.window 0x8 (by decide)
  have hfilter : (overlapping.segments.filter fun s => s.Covers 0x8).getLast? = none := by rfl
  rw [hfilter] at hold
  exact hold.trans ((WriteLog.get?_apply _ _ _).trans (if_pos rfl))

/-! ## Programs of tiles -/

theorem diagnostics_placeSteps {steps : Script} (h : p.placeSteps t = .ok steps) :
    steps.diagnostics = [] := by
  have hnone : ∀ x ∈ steps, x.diagnostic? = none := by
    intro x hx
    unfold placeSteps at h
    split at h
    · cases h
      obtain ⟨s, -, hs⟩ := List.mem_flatMap.mp hx
      unfold Segment.placeSteps at hs
      split at hs
      · rw [List.mem_singleton.mp hs]
        rfl
      · obtain ⟨i, hi, rfl⟩ := List.mem_mapIdx.mp hs
        unfold Step.put
        split <;> rfl
    · cases h
    · cases h
      rw [List.mem_singleton.mp hx]
      rfl
  rw [Script.diagnostics, List.filterMap_eq_nil_iff]
  intro x hx
  exact hnone x ((List.takeWhile_sublist _).mem hx)

/-- What the tile phase does with the program of a tile is to load it. An error costs a diagnostic,
and the run goes on. -/
theorem perform_loadSteps {source : ProgramSource} {dir : String} {x : Tile} {core : Core}
    (hcore : x.core = some core)
    (hp : source (programPath dir x.column x.row core.programFile) = .ok p) (log : WriteLog) :
    (loadSteps source dir t x).perform (.start log) = (p.load t log).map fun r => ⟨r.2,
      match r.1 with
      | .ok _ => []
      | .error cause =>
        [(Problem.programLoad (programPath dir x.column x.row core.programFile) cause).on t]⟩ := by
  have hremark : Script.perform
      (if p.segments.isEmpty then [Step.remark t .emptyProgram] else []) (.start log) =
        .ok (.start log) := by
    split <;> rfl
  simp only [loadSteps, hcore, hp, load]
  cases hsteps : p.placeSteps t with
  | error cause =>
    have hfatal : cause.isFatal = false := by
      unfold placeSteps at hsteps
      split at hsteps <;> cases hsteps
      exact isFatal_of_rejected ‹_›
    simp only [Script.perform_append, hremark, loadSteps.failed, hfatal]
    rfl
  | ok steps =>
    have hdiag := diagnostics_placeSteps hsteps
    simp only [Script.perform_append, hremark]
    show steps.perform (.start log) = _
    rw [Script.perform_eq, hdiag]
    cases steps.stop? <;> rfl

end ProgramImage
end ArrayImage
