import ArrayImage.Proofs.WriteLog
import ArrayImage.Script

/-!
# ArrayImage.Proofs.Script

Scripts that run to their end.

* `Completes s`: no step of `s` ends the run. Then all writes and diagnostics of `s` are made, and
  both are read off the list of steps.
* `get?_applyTo_of_puts`: an address that is only ever replaced holds the last word put there.
* `IsOn t s`: whatever `s` does, it does to the tile `t`.
* `AllWrites P s`, `AllFaults P s`: what all writes of `s`, or all faults of `s`, have in common.
* `filter_flatMap_onTile`: when every item of a list has steps on its own tile only, the steps on
  one tile are the steps of the items that sit there.
-/

namespace ArrayImage

namespace Step

def tile? : Step → Option TileId
  | write w => some w.register.tile
  | report tile _ | remark tile _ => some tile
  | fault _ | abort _ => none

/-- The word that a step puts at `address`. -/
def wordAt? (address : Nat) (s : Step) : Option Word :=
  s.write?.bind (Write.wordAt? address)

theorem put_eq_write {t : TileId} {o : Nat} (u : Update) (hc : 0 < t.column)
    (ho : o < windowSize) : put t o u = .write ⟨⟨t, o, ho⟩, u, hc⟩ := by
  rw [put, Write.at?, dif_pos hc, dif_pos ho]

theorem stop?_put_eq_none_iff {t : TileId} {o : Nat} {u : Update} :
    (put t o u).stop? = none ↔ 0 < t.column ∧ o < windowSize := by
  constructor
  · intro h
    by_cases hc : 0 < t.column
    · by_cases ho : o < windowSize
      · exact ⟨hc, ho⟩
      · rw [put, Write.at?, dif_pos hc, dif_neg ho] at h
        cases h
    · rw [put, Write.at?, dif_neg hc] at h
      cases h
  · rintro ⟨hc, ho⟩
    rw [put_eq_write u hc ho]
    rfl

theorem tile?_put (t : TileId) (o : Nat) (u : Update) :
    (put t o u).tile? = none ∨ (put t o u).tile? = some t := by
  by_cases hc : 0 < t.column
  · by_cases ho : o < windowSize
    · rw [put_eq_write u hc ho]
      exact .inr rfl
    · rw [put, Write.at?, dif_pos hc, dif_neg ho]
      exact .inl rfl
  · rw [put, Write.at?, dif_neg hc]
    exact .inl rfl

/-- A put that is a write is the write that it looks like. -/
theorem eq_of_put_eq_write {t : TileId} {o : Nat} {u : Update} {w : Write}
    (h : put t o u = .write w) :
    w.register.tile = t ∧ w.register.offset = o ∧ w.update = u := by
  obtain ⟨hc, ho⟩ := stop?_put_eq_none_iff.mp (h ▸ rfl : (put t o u).stop? = none)
  rw [put_eq_write u hc ho] at h
  cases h
  exact ⟨rfl, rfl, rfl⟩

@[simp] theorem wordAt?_write (w : Write) (a : Nat) : (write w).wordAt? a = w.wordAt? a := by
  rw [wordAt?, write?, Option.bind_some]

theorem wordAt?_put {t : TileId} {o a : Nat} {v : Word} (h : (put t o (.put v)).stop? = none) :
    (put t o (.put v)).wordAt? a = if t.address o = a then some v else none := by
  obtain ⟨hc, ho⟩ := stop?_put_eq_none_iff.mp h
  rw [put_eq_write _ hc ho, wordAt?_write, Write.wordAt?, Write.address, Register.address]

/-- Seen from another place of the same window, a put is there or it is not. -/
theorem wordAt?_put_address {t : TileId} {o p : Nat} {v : Word}
    (h : (put t o (.put v)).stop? = none) (hp : p < windowSize) :
    (put t o (.put v)).wordAt? (t.address p) = if o = p then some v else none := by
  obtain ⟨_, ho⟩ := stop?_put_eq_none_iff.mp h
  rw [wordAt?_put h]
  by_cases hop : o = p
  · rw [if_pos hop, if_pos (by rw [hop])]
  · rw [if_neg hop, if_neg fun he => hop ((TileId.address_inj ho hp).mp he).2]

theorem wordAt?_put_of_ne {t : TileId} {o p : Nat} (u : Update) (h : o ≠ p)
    (hp : p < windowSize) : (put t o u).wordAt? (t.address p) = none := by
  by_cases hs : (put t o u).stop? = none
  · obtain ⟨hc, ho⟩ := stop?_put_eq_none_iff.mp hs
    rw [put_eq_write u hc ho, wordAt?_write]
    exact Write.wordAt?_of_ne fun he => h ((TileId.address_inj ho hp).mp he).2
  · cases hx : put t o u with
    | write w => exact absurd (hx ▸ rfl) hs
    | _ => rfl

@[simp] theorem wordAt?_report (t : TileId) (p : Problem) (a : Nat) :
    (report t p).wordAt? a = none := rfl

@[simp] theorem wordAt?_remark (t : TileId) (r : Remark) (a : Nat) :
    (remark t r).wordAt? a = none := rfl

theorem wordAt?_eq_none_of_tile? {s : Step} {t : TileId} {o : Nat}
    (h : s.tile? ≠ some t) : s.wordAt? (t.address o) = none := by
  cases s with
  | write w =>
    rw [wordAt?_write]
    refine Write.wordAt?_of_ne fun he => h ?_
    have := congrArg TileId.ofAddress he
    rw [Write.address, Register.tile_ofAddress, TileId.ofAddress_address] at this
    rw [tile?, this]
  | report _ _ => rfl
  | remark _ _ => rfl
  | fault _ => rfl
  | abort _ => rfl

end Step

namespace Script

/-! ## Complete runs -/

/-- No step ends the run. -/
def Completes (s : Script) : Prop :=
  s.stop? = none

theorem completes_iff {s : Script} : s.Completes ↔ ∀ x ∈ s, x.stop? = none :=
  List.findSome?_eq_none_iff

@[simp] theorem completes_nil : Completes [] := rfl

@[simp] theorem completes_cons {x : Step} {s : Script} :
    Completes (x :: s) ↔ x.stop? = none ∧ s.Completes := by
  simp [completes_iff]

@[simp] theorem completes_append {s t : Script} :
    Completes (s ++ t) ↔ s.Completes ∧ t.Completes := by
  simp only [completes_iff, List.mem_append]
  constructor
  · intro h
    exact ⟨fun x hx => h x (.inl hx), fun x hx => h x (.inr hx)⟩
  · rintro ⟨hs, ht⟩ x (hx | hx)
    · exact hs x hx
    · exact ht x hx

@[simp] theorem completes_flatMap {α : Type} {l : List α} {f : α → Script} :
    Completes (l.flatMap f) ↔ ∀ x ∈ l, (f x).Completes := by
  simp only [completes_iff, List.mem_flatMap]
  constructor
  · intro h x hx s hs
    exact h s ⟨x, hx, hs⟩
  · rintro h s ⟨x, hx, hs⟩
    exact h x hx s hs

@[simp] theorem not_completes_fault (f : Fault) : ¬ Completes [.fault f] := by
  simp [Step.stop?]

theorem Completes.reached_eq {s : Script} (h : s.Completes) : s.reached = s := by
  rw [reached, ← List.append_nil s, List.takeWhile_append_of_pos, List.takeWhile_nil]
  intro x hx
  rw [Step.continues, completes_iff.mp h x hx]
  rfl

theorem Completes.writes_eq {s : Script} (h : s.Completes) :
    s.writes = s.filterMap Step.write? := by
  rw [writes, h.reached_eq]

theorem Completes.diagnostics_eq {s : Script} (h : s.Completes) :
    s.diagnostics = s.filterMap Step.diagnostic? := by
  rw [diagnostics, h.reached_eq]

theorem applyTo_append {s t : Script} (h : (s ++ t).Completes) (log : WriteLog) :
    (s ++ t).applyTo log = t.applyTo (s.applyTo log) := by
  obtain ⟨hs, ht⟩ := completes_append.mp h
  rw [applyTo, applyTo, applyTo, h.writes_eq, hs.writes_eq, ht.writes_eq, List.filterMap_append,
    WriteLog.applyAll_append]

theorem mem_writes_iff {s : Script} (h : s.Completes) {w : Write} :
    w ∈ s.writes ↔ .write w ∈ s := by
  rw [h.writes_eq, List.mem_filterMap]
  constructor
  · rintro ⟨x, hx, hw⟩
    cases x <;> simp only [Step.write?, Option.some.injEq, reduceCtorEq] at hw
    exact hw ▸ hx
  · intro hw
    exact ⟨_, hw, rfl⟩

/-! ## Registers after a run -/

/-- The last word that a script puts at `a`. -/
def lastWord? (s : Script) (a : Nat) : Option Word :=
  (s.filterMap (Step.wordAt? a)).getLast?

@[simp] theorem lastWord?_nil (a : Nat) : lastWord? [] a = none := rfl

@[simp] theorem lastWord?_cons (x : Step) (s : Script) (a : Nat) :
    lastWord? (x :: s) a = (lastWord? s a).or (x.wordAt? a) := by
  rw [lastWord?, lastWord?, List.filterMap_cons]
  cases x.wordAt? a with
  | none => rw [Option.or_none]
  | some v =>
    rw [List.getLast?_cons]
    cases (s.filterMap (Step.wordAt? a)).getLast? <;> rfl

@[simp] theorem lastWord?_append (s s' : Script) (a : Nat) :
    lastWord? (s ++ s') a = (lastWord? s' a).or (lastWord? s a) := by
  rw [lastWord?, List.filterMap_append, List.getLast?_append]
  rfl

/-- When each item leaves a word of its own or none, the last of these words stays. -/
theorem lastWord?_flatMap {α : Type} {l : List α} {f : α → Script} {g : α → Option Word} {a : Nat}
    (h : ∀ x ∈ l, lastWord? (f x) a = g x) :
    lastWord? (l.flatMap f) a = (l.filterMap g).getLast? := by
  induction l with
  | nil => rfl
  | cons x l ih =>
    rw [List.flatMap_cons, lastWord?_append, ih fun y hy => h y (List.mem_cons_of_mem _ hy),
      h x List.mem_cons_self, List.filterMap_cons]
    cases g x with
    | none => rw [Option.or_none]
    | some v =>
      rw [List.getLast?_cons]
      cases (l.filterMap g).getLast? <;> rfl

theorem lastWord?_eq_none {s : Script} {a : Nat} (h : ∀ x ∈ s, x.wordAt? a = none) :
    s.lastWord? a = none := by
  rw [lastWord?, List.filterMap_eq_nil_iff.mpr h]
  rfl

/-- After a complete run, an address that is only ever replaced holds the last word put there. -/
theorem get?_applyTo_of_puts {s : Script} (hs : s.Completes) {log : WriteLog} {a : Nat}
    (h : ∀ w, .write w ∈ s → w.address = a → ∃ v, w.update = .put v) :
    (s.applyTo log).get? a = (s.lastWord? a).or (log.get? a) := by
  have hw : s.writes.filterMap (Write.wordAt? a) = s.filterMap (Step.wordAt? a) := by
    rw [hs.writes_eq, List.filterMap_filterMap]
    rfl
  rw [applyTo, WriteLog.get?_applyAll_of_puts fun w hm => h w ((mem_writes_iff hs).mp hm), hw,
    lastWord?]

theorem get?_applyTo_of_not_written {s : Script} (hs : s.Completes) {log : WriteLog} {a : Nat}
    (h : ∀ w, .write w ∈ s → w.address ≠ a) : (s.applyTo log).get? a = log.get? a :=
  WriteLog.get?_applyAll_of_not_written fun w hm => h w ((mem_writes_iff hs).mp hm)

/-! ## Addresses that are written -/

/-- Some write is to `a`. -/
def Touches (s : Script) (a : Nat) : Prop :=
  ∃ w, .write w ∈ s ∧ w.address = a

theorem isSome_get?_applyTo {s : Script} (hs : s.Completes) (log : WriteLog) (a : Nat) :
    ((s.applyTo log).get? a).isSome ↔ (log.get? a).isSome ∨ s.Touches a := by
  simp only [applyTo, WriteLog.isSome_get?_applyAll, mem_writes_iff hs, Touches]

@[simp] theorem not_touches_nil (a : Nat) : ¬ Touches [] a := by
  simp [Touches]

@[simp] theorem touches_append {s s' : Script} {a : Nat} :
    Touches (s ++ s') a ↔ s.Touches a ∨ s'.Touches a := by
  simp only [Touches, List.mem_append]
  constructor
  · rintro ⟨w, hw | hw, ha⟩
    · exact .inl ⟨w, hw, ha⟩
    · exact .inr ⟨w, hw, ha⟩
  · rintro (⟨w, hw, ha⟩ | ⟨w, hw, ha⟩)
    · exact ⟨w, .inl hw, ha⟩
    · exact ⟨w, .inr hw, ha⟩

@[simp] theorem touches_flatMap {α : Type} {l : List α} {f : α → Script} {a : Nat} :
    Touches (l.flatMap f) a ↔ ∃ x ∈ l, Touches (f x) a := by
  simp only [Touches, List.mem_flatMap]
  constructor
  · rintro ⟨w, ⟨x, hx, hw⟩, ha⟩
    exact ⟨x, hx, w, hw, ha⟩
  · rintro ⟨x, hx, w, hw, ha⟩
    exact ⟨w, ⟨x, hx, hw⟩, ha⟩

theorem touches_onTile {array c r : Nat} {f : TileId → Script} {a : Nat} :
    Touches (onTile array c r f) a ↔ ∃ t, TileId.at? array c r = .ok t ∧ (f t).Touches a := by
  unfold onTile
  cases TileId.at? array c r with
  | error fault => simp [Touches]
  | ok t => simp

theorem touches_map_put {α : Type} {t : TileId} {l : List α} {o : α → Nat} {u : α → Update}
    (hs : Completes (l.map fun x => Step.put t (o x) (u x))) {a : Nat} :
    Touches (l.map fun x => Step.put t (o x) (u x)) a ↔ ∃ x ∈ l, a = t.address (o x) := by
  have hstop : ∀ x ∈ l, (Step.put t (o x) (u x)).stop? = none := fun x hx =>
    completes_iff.mp hs _ (List.mem_map_of_mem hx)
  constructor
  · rintro ⟨w, hw, rfl⟩
    obtain ⟨x, hx, hw⟩ := List.mem_map.mp hw
    obtain ⟨ht, ho, -⟩ := Step.eq_of_put_eq_write hw
    exact ⟨x, hx, by rw [Write.address, Register.address, ht, ho]⟩
  · rintro ⟨x, hx, rfl⟩
    obtain ⟨hc, ho⟩ := Step.stop?_put_eq_none_iff.mp (hstop x hx)
    exact ⟨⟨⟨t, o x, ho⟩, u x, hc⟩, List.mem_map.mpr ⟨x, hx, Step.put_eq_write _ hc ho⟩, rfl⟩

/-! ## What the writes of a script have in common -/

def AllWrites (P : Write → Prop) (s : Script) : Prop :=
  ∀ w, .write w ∈ s → P w

section AllWrites

variable {P : Write → Prop}

@[simp] theorem allWrites_nil : AllWrites P [] := by
  simp [AllWrites]

@[simp] theorem allWrites_cons {x : Step} {s : Script} :
    AllWrites P (x :: s) ↔ (∀ w, x = .write w → P w) ∧ AllWrites P s := by
  simp only [AllWrites, List.mem_cons]
  constructor
  · intro h
    exact ⟨fun w hw => h w (.inl hw.symm), fun w hw => h w (.inr hw)⟩
  · rintro ⟨hx, hs⟩ w (hw | hw)
    · exact hx w hw.symm
    · exact hs w hw

@[simp] theorem allWrites_append {s s' : Script} :
    AllWrites P (s ++ s') ↔ AllWrites P s ∧ AllWrites P s' := by
  simp only [AllWrites, List.mem_append]
  constructor
  · intro h
    exact ⟨fun w hw => h w (.inl hw), fun w hw => h w (.inr hw)⟩
  · rintro ⟨hs, hs'⟩ w (hw | hw)
    · exact hs w hw
    · exact hs' w hw

@[simp] theorem allWrites_flatMap {α : Type} {l : List α} {f : α → Script} :
    AllWrites P (l.flatMap f) ↔ ∀ x ∈ l, AllWrites P (f x) := by
  simp only [AllWrites, List.mem_flatMap]
  constructor
  · intro h x hx w hw
    exact h w ⟨x, hx, hw⟩
  · rintro h w ⟨x, hx, hw⟩
    exact h x hx w hw

theorem allWrites_onTile {a c r : Nat} {f : TileId → Script}
    (h : ∀ t, TileId.at? a c r = .ok t → AllWrites P (f t)) : AllWrites P (onTile a c r f) := by
  unfold onTile
  cases ht : TileId.at? a c r with
  | error fault => simp
  | ok t => exact h t ht

theorem lastWord?_eq_none_of_allWrites {s : Script} {t : TileId} {o : Nat} (h : AllWrites P s)
    (hP : ∀ w, P w → w.register.offset ≠ o) (ho : o < windowSize) :
    s.lastWord? (t.address o) = none := by
  refine lastWord?_eq_none fun x hx => ?_
  cases x with
  | write w =>
    rw [Step.wordAt?_write]
    exact Write.wordAt?_of_ne fun he =>
      hP w (h w hx) ((TileId.address_inj w.register.offset_lt ho).mp he).2
  | _ => rfl

end AllWrites

/-! ## The faults that a script has -/

/-- `P` holds of every fault, also of those that are not reached. -/
def AllFaults (P : Fault → Prop) (s : Script) : Prop :=
  ∀ f, .fault f ∈ s → P f

section AllFaults

variable {P : Fault → Prop}

theorem Completes.allFaults {s : Script} (h : s.Completes) : AllFaults P s := by
  intro f hf
  cases completes_iff.mp h _ hf

@[simp] theorem allFaults_nil : AllFaults P [] := by
  simp [AllFaults]

@[simp] theorem allFaults_cons {x : Step} {s : Script} :
    AllFaults P (x :: s) ↔ (∀ f, x = .fault f → P f) ∧ AllFaults P s := by
  simp only [AllFaults, List.mem_cons]
  constructor
  · intro h
    exact ⟨fun f hf => h f (.inl hf.symm), fun f hf => h f (.inr hf)⟩
  · rintro ⟨hx, hs⟩ f (hf | hf)
    · exact hx f hf.symm
    · exact hs f hf

@[simp] theorem allFaults_append {s s' : Script} :
    AllFaults P (s ++ s') ↔ AllFaults P s ∧ AllFaults P s' := by
  simp only [AllFaults, List.mem_append]
  constructor
  · intro h
    exact ⟨fun f hf => h f (.inl hf), fun f hf => h f (.inr hf)⟩
  · rintro ⟨hs, hs'⟩ f (hf | hf)
    · exact hs f hf
    · exact hs' f hf

@[simp] theorem allFaults_flatMap {α : Type} {l : List α} {f : α → Script} :
    AllFaults P (l.flatMap f) ↔ ∀ x ∈ l, AllFaults P (f x) := by
  simp only [AllFaults, List.mem_flatMap]
  constructor
  · intro h x hx g hg
    exact h g ⟨x, hx, hg⟩
  · rintro h g ⟨x, hx, hg⟩
    exact h x hx g hg

theorem mem_of_stop? {s : Script} {f : Fault} (h : s.stop? = some (.fault f)) :
    .fault f ∈ s := by
  obtain ⟨x, hx, hstop⟩ := List.exists_of_findSome?_eq_some h
  cases x <;> cases hstop
  exact hx

end AllFaults

/-- A list of registers, each of them once, is left with the words of the list. -/
theorem lastWord?_map_put {t : TileId} {base o : Nat} {ws : List (Nat × Word)}
    (hs : Completes (ws.map fun p => Step.put t (base + p.1) (.put p.2)))
    (hd : (ws.map Prod.fst).Nodup) (ho : base + o < windowSize) :
    lastWord? (ws.map fun p => Step.put t (base + p.1) (.put p.2)) (t.address (base + o)) =
      ws.lookup o := by
  induction ws with
  | nil => rfl
  | cons p ws ih =>
    obtain ⟨q, v⟩ := p
    rw [List.map_cons] at hs hd
    rw [List.map_cons, lastWord?_cons, ih (completes_cons.mp hs).2 (List.nodup_cons.mp hd).2,
      Step.wordAt?_put_address (completes_cons.mp hs).1 ho, List.lookup_cons]
    by_cases hqo : q = o
    · subst hqo
      have hnone : ws.lookup q = none := by
        rw [List.lookup_eq_none_iff]
        intro x hx
        simp only [bne_iff_ne, ne_eq]
        exact fun he => (List.nodup_cons.mp hd).1 (List.mem_map.mpr ⟨x, hx, he.symm⟩)
      simp [hnone]
    · have hb : (o == q) = false := beq_eq_false_iff_ne.mpr (Ne.symm hqo)
      simp [hqo, hb]

/-! ## Scripts on one tile -/

/-- Every step that is about a tile is about `t`. -/
def IsOn (t : TileId) (s : Script) : Prop :=
  ∀ x ∈ s, ∀ u, x.tile? = some u → u = t

@[simp] theorem isOn_nil (t : TileId) : IsOn t [] := by
  simp [IsOn]

@[simp] theorem isOn_cons {t : TileId} {x : Step} {s : Script} :
    IsOn t (x :: s) ↔ (∀ u, x.tile? = some u → u = t) ∧ IsOn t s := by
  simp [IsOn]

@[simp] theorem isOn_append {t : TileId} {s s' : Script} :
    IsOn t (s ++ s') ↔ IsOn t s ∧ IsOn t s' := by
  simp only [IsOn, List.mem_append]
  constructor
  · intro h
    exact ⟨fun x hx => h x (.inl hx), fun x hx => h x (.inr hx)⟩
  · rintro ⟨hs, hs'⟩ x (hx | hx)
    · exact hs x hx
    · exact hs' x hx

@[simp] theorem isOn_flatMap {α : Type} {t : TileId} {l : List α} {f : α → Script} :
    IsOn t (l.flatMap f) ↔ ∀ x ∈ l, IsOn t (f x) := by
  simp only [IsOn, List.mem_flatMap]
  constructor
  · intro h x hx s hs
    exact h s ⟨x, hx, hs⟩
  · rintro h s ⟨x, hx, hs⟩
    exact h x hx s hs

@[simp] theorem isOn_map {α : Type} {t : TileId} {l : List α} {f : α → Step} :
    IsOn t (l.map f) ↔ ∀ x ∈ l, ∀ u, (f x).tile? = some u → u = t := by
  simp [IsOn]

theorem eq_of_tile?_put {t u : TileId} {o : Nat} {v : Update}
    (h : (Step.put t o v).tile? = some u) : u = t := by
  rcases Step.tile?_put t o v with he | he <;> rw [he] at h <;> cases h
  rfl

theorem IsOn.tile?_eq {t : TileId} {s : Script} (h : IsOn t s) (hs : s.Completes) {x : Step}
    (hx : x ∈ s) : x.tile? = some t := by
  have hstop := completes_iff.mp hs x hx
  cases hu : x.tile? with
  | some u => rw [h x hx u hu]
  | none => cases x <;> simp [Step.tile?, Step.stop?] at hu hstop

/-! ## The part of a run on some tiles -/

theorem Completes.filter {s : Script} (h : s.Completes) (p : Step → Bool) :
    Completes (s.filter p) :=
  completes_iff.mpr fun x hx => completes_iff.mp h x (List.mem_filter.mp hx).1

theorem filterMap_filter_comm {α β : Type} {f : α → Option β} {q : α → Bool} {p : β → Bool}
    (h : ∀ x y, f x = some y → q x = p y) (l : List α) :
    (l.filter q).filterMap f = (l.filterMap f).filter p := by
  induction l with
  | nil => rfl
  | cons x l ih =>
    cases hf : f x with
    | none => by_cases hq : q x <;> simp [hf, hq, ih]
    | some y => by_cases hp : p y <;> simp [hf, h x y hf, hp, ih]

theorem writes_filter_tile {s : Script} (h : s.Completes) (p : TileId → Bool) :
    Script.writes (s.filter fun x => x.tile?.any p) =
      s.writes.filter fun w => p w.register.tile := by
  rw [(h.filter _).writes_eq, h.writes_eq]
  refine filterMap_filter_comm (fun x w hx => ?_) s
  cases x <;> cases hx
  rfl

theorem diagnostics_filter_tile {s : Script} (h : s.Completes) (p : TileId → Bool) :
    Script.diagnostics (s.filter fun x => x.tile?.any p) =
      s.diagnostics.filter fun g => p g.tile := by
  rw [(h.filter _).diagnostics_eq, h.diagnostics_eq]
  refine filterMap_filter_comm (fun x g hx => ?_) s
  cases x <;> cases hx
  rfl

/-! ## Items on their tiles -/

theorem completes_onTile {a c r : Nat} {f : TileId → Script} :
    Completes (onTile a c r f) ↔ ∃ t, TileId.at? a c r = .ok t ∧ (f t).Completes := by
  unfold onTile
  cases TileId.at? a c r <;> simp [Step.stop?]

theorem onTile_eq {a c r : Nat} {t : TileId} (h : TileId.at? a c r = .ok t)
    (f : TileId → Script) : onTile a c r f = f t := by
  rw [onTile, h]

section Items

variable {α : Type} {l : List α} {a : Nat} {c r : α → Nat} {f : α → TileId → Script}

/-- The steps about some tiles are the steps of the items on these tiles. -/
theorem filter_flatMap_onTile {p : TileId → Bool} {q : α → Bool}
    (hs : Completes (l.flatMap fun x => onTile a (c x) (r x) (f x)))
    (hf : ∀ x t, IsOn t (f x t))
    (hq : ∀ x t, TileId.at? a (c x) (r x) = .ok t → q x = p t) :
    (l.flatMap fun x => onTile a (c x) (r x) (f x)).filter (fun s => s.tile?.any p) =
      (l.filter q).flatMap fun x => onTile a (c x) (r x) (f x) := by
  induction l with
  | nil => rfl
  | cons x l ih =>
    rw [List.flatMap_cons, completes_append] at hs
    obtain ⟨t, ht, hft⟩ := completes_onTile.mp hs.1
    have htile : ∀ s ∈ f x t, s.tile?.any p = p t := fun s hm => by
      rw [(hf x t).tile?_eq hft hm, Option.any_some]
    rw [List.flatMap_cons, List.filter_append, ih hs.2, onTile_eq ht, List.filter_congr htile,
      List.filter_cons, hq x t ht]
    cases p t <;> simp [onTile_eq ht]

/-- The word left in one tile is the one that the items on it leave there. -/
theorem lastWord?_flatMap_onTile (t : TileId) (o : Nat)
    (hs : Completes (l.flatMap fun x => onTile a (c x) (r x) (f x)))
    (hf : ∀ x t, IsOn t (f x t)) :
    lastWord? (l.flatMap fun x => onTile a (c x) (r x) (f x)) (t.address o) =
      lastWord? ((l.filter fun x => t.isAt a (c x) (r x)).flatMap fun x => f x t)
        (t.address o) := by
  induction l with
  | nil => rfl
  | cons x l ih =>
    rw [List.flatMap_cons, completes_append] at hs
    obtain ⟨u, hu, hfu⟩ := completes_onTile.mp hs.1
    rw [List.flatMap_cons, lastWord?_append, ih hs.2, onTile_eq hu, List.filter_cons]
    by_cases hut : u = t
    · subst hut
      rw [if_pos (TileId.isAt_iff.mpr hu), List.flatMap_cons, lastWord?_append]
    · have hnone : lastWord? (f x u) (t.address o) = none := by
        refine lastWord?_eq_none fun s hm => Step.wordAt?_eq_none_of_tile? ?_
        rw [(hf x u).tile?_eq hfu hm]
        exact fun he => hut (Option.some.inj he)
      have hat : ¬ t.isAt a (c x) (r x) = true := fun h => by
        rw [TileId.isAt_iff, hu] at h
        exact hut (Except.ok.inj h)
      rw [hnone, if_neg hat, Option.or_none]

theorem completes_filter_isAt {t : TileId}
    (hs : Completes (l.flatMap fun x => onTile a (c x) (r x) (f x))) :
    ∀ x ∈ l.filter fun x => t.isAt a (c x) (r x), Completes (f x t) := by
  intro x hx
  obtain ⟨hm, hat⟩ := List.mem_filter.mp hx
  have hx' := completes_flatMap.mp hs x hm
  rwa [onTile_eq (TileId.isAt_iff.mp hat)] at hx'

end Items
end Script
end ArrayImage
