import ArrayImage.Proofs.Placement

/-!
# ArrayImage.Proofs.Stepwise

Runs step by step.

A run has registers and diagnostics. Each step changes one of the two or ends the run
(`Step.perform`), and a script performs its steps in order. What a whole script does is read off its
list of steps (`Script.perform_eq`). A list of puts at different places is all there behind it, and
nothing else has changed (`Updated`, `Script.perform_puts`). The phases of a design perform what a
run of it is made of (`Device.configure_eq_perform`).
-/

namespace ArrayImage

/-- How far a run has come: the registers, and the diagnostics so far. -/
structure Progress where
  log : WriteLog
  diagnostics : List Diagnostic

def Progress.start (log : WriteLog) : Progress :=
  ⟨log, []⟩

/-- What a step makes of a run, unless it ends it. -/
def Step.perform (p : Progress) : Step → Except Stop Progress
  | write w => .ok { p with log := p.log.apply w }
  | report t x => .ok { p with diagnostics := p.diagnostics ++ [x.on t] }
  | remark _ _ => .ok p
  | fault f => .error (.fault f)
  | abort f => .error (.abort f)

namespace Script

/-- Perform the steps in order, up to one that ends the run. -/
def perform (s : Script) (p : Progress) : Except Stop Progress :=
  s.foldlM Step.perform p

theorem reached_cons {x : Step} (h : x.stop? = none) (s : Script) :
    reached (x :: s) = x :: s.reached := by
  rw [reached, List.takeWhile_cons, Step.continues, h]
  rfl

theorem stop?_cons {x : Step} (h : x.stop? = none) (s : Script) : stop? (x :: s) = s.stop? := by
  rw [stop?, List.findSome?_cons, h, stop?]

theorem applyTo_cons {x : Step} (h : x.stop? = none) (s : Script) (log : WriteLog) :
    applyTo (x :: s) log = s.applyTo (log.applyAll x.write?.toList) := by
  rw [applyTo, applyTo, ← WriteLog.applyAll_append, writes, writes, reached_cons h,
    List.filterMap_cons]
  cases x.write? <;> rfl

theorem diagnostics_cons {x : Step} (h : x.stop? = none) (s : Script) :
    diagnostics (x :: s) = x.diagnostic?.toList ++ s.diagnostics := by
  rw [diagnostics, diagnostics, reached_cons h, List.filterMap_cons]
  cases x.diagnostic? <;> rfl

/-- A script as a whole does what its steps do one after the other. -/
theorem perform_eq (s : Script) (p : Progress) : s.perform p =
    match s.stop? with
    | some stop => .error stop
    | none => .ok ⟨s.applyTo p.log, p.diagnostics ++ s.diagnostics⟩ := by
  induction s generalizing p with
  | nil =>
    rw [show diagnostics [] = [] from rfl, List.append_nil]
    rfl
  | cons x s ih =>
    have hcons : ∀ q, x.perform p = .ok q → perform (x :: s) p = perform s q := by
      intro q hq
      rw [perform, List.foldlM_cons, hq]
      rfl
    cases x with
    | write w =>
      rw [hcons _ rfl, ih, stop?_cons rfl, applyTo_cons rfl, diagnostics_cons rfl]
      rfl
    | report t x =>
      rw [hcons _ rfl, ih, stop?_cons rfl, applyTo_cons rfl, diagnostics_cons rfl,
        List.append_assoc]
      rfl
    | remark t r =>
      rw [hcons _ rfl, ih, stop?_cons rfl, applyTo_cons rfl, diagnostics_cons rfl]
      rfl
    | fault f => rfl
    | abort f => rfl

theorem perform_eq_ok_iff {s : Script} {log log' : WriteLog} {ds ds' : List Diagnostic} :
    s.perform ⟨log, ds⟩ = .ok ⟨log', ds'⟩ ↔
      s.Completes ∧ log' = s.applyTo log ∧ ds' = ds ++ s.diagnostics := by
  rw [perform_eq, Completes]
  cases s.stop? with
  | some stop => simp
  | none => simp [eq_comm]

theorem perform_append (s s' : Script) (p : Progress) :
    perform (s ++ s') p = s.perform p >>= s'.perform :=
  List.foldlM_append

end Script

/-! ## Runs of puts and of reports -/

/-- `after` is `before` with an update at each of these places of `t`, and with all other addresses
as they were. -/
structure Updated (t : TileId) (changes : List (Nat × Update)) (before after : WriteLog) :
    Prop where
  changed : ∀ x ∈ changes, after.get? (t.address x.1) = some (x.2.on (before.read t x.1))
  others : ∀ a, (∀ x ∈ changes, a ≠ t.address x.1) → after.get? a = before.get? a

theorem Updated.nil (t : TileId) (log : WriteLog) : Updated t [] log log where
  changed _ hx := absurd hx List.not_mem_nil
  others _ _ := rfl

/-- An update, and others after it at other places. -/
theorem Updated.cons {t : TileId} {o : Nat} {u : Update} {changes : List (Nat × Update)}
    {before after : WriteLog} (hc : 0 < t.column) (ho : o < windowSize)
    (h : Updated t changes (before.apply ⟨⟨t, o, ho⟩, u, hc⟩) after)
    (hlt : ∀ x ∈ changes, x.1 < windowSize) (hne : ∀ x ∈ changes, o ≠ x.1) :
    Updated t ((o, u) :: changes) before after := by
  have happly : ∀ a, (before.apply ⟨⟨t, o, ho⟩, u, hc⟩).get? a =
      if t.address o = a then some (u.on (before.read t o)) else before.get? a := by
    intro a
    rw [WriteLog.get?_apply]
    by_cases he : t.address o = a
    · subst he
      rfl
    · rw [if_neg he]
      exact if_neg he
  have hapart : ∀ x ∈ changes, t.address o ≠ t.address x.1 := fun x hx he =>
    hne x hx ((TileId.address_inj ho (hlt x hx)).mp he).2
  constructor
  · rintro x (_ | ⟨_, hx⟩)
    · rw [h.others _ hapart, happly, if_pos rfl]
    · rw [h.changed x hx, WriteLog.read, WriteLog.wordAt, happly, if_neg (hapart x hx)]
      rfl
  · intro a ha
    obtain ⟨hao, ha⟩ := List.forall_mem_cons.mp ha
    rw [h.others a ha, happly, if_neg hao.symm]

/-- Puts at different places of a tile are all made, and nothing is reported. -/
theorem Script.perform_puts {t : TileId} (hc : 0 < t.column) (changes : List (Nat × Update))
    (hlt : ∀ x ∈ changes, x.1 < windowSize) (hdiff : changes.Pairwise fun x y => x.1 ≠ y.1)
    (p : Progress) :
    ∃ after, perform (changes.map fun x => Step.put t x.1 x.2) p = .ok ⟨after, p.diagnostics⟩ ∧
      Updated t changes p.log after := by
  induction changes generalizing p with
  | nil => exact ⟨p.log, rfl, Updated.nil t p.log⟩
  | cons x changes ih =>
    obtain ⟨hx, hlt⟩ := List.forall_mem_cons.mp hlt
    obtain ⟨hne, hdiff⟩ := List.pairwise_cons.mp hdiff
    obtain ⟨after, hrun, hupd⟩ := ih hlt hdiff ⟨p.log.apply ⟨⟨t, x.1, hx⟩, x.2, hc⟩, p.diagnostics⟩
    refine ⟨after, ?_, Updated.cons hc hx hupd hlt hne⟩
    rw [List.map_cons, Step.put_eq_write x.2 hc hx]
    exact hrun

/-- Reports are put behind the diagnostics so far, and no register changes. -/
theorem Script.perform_reports (t : TileId) (ps : List Problem) (p : Progress) :
    perform (ps.map (Step.report t)) p = .ok ⟨p.log, p.diagnostics ++ ps.map (·.on t)⟩ := by
  induction ps generalizing p with
  | nil =>
    rw [List.map_nil, List.map_nil, List.append_nil]
    rfl
  | cons x ps ih =>
    refine (ih ⟨p.log, p.diagnostics ++ [x.on t]⟩).trans ?_
    rw [List.map_cons, List.append_assoc]
    rfl

/-! ## Phases -/

/-- A run of a design performs the steps of its three phases, from no registers on. -/
theorem Device.configure_eq_perform (d : Device) (source : ProgramSource) (dir : String)
    (addresses : AddressSource) : d.configure source dir addresses =
      ((d.tileSteps source dir).perform (.start .empty) >>= d.streamSteps.perform >>=
        (d.dmaSteps addresses).perform).map fun p => (p.log, p.diagnostics) := by
  have hscript : d.script source dir addresses =
    d.tileSteps source dir ++ d.streamSteps ++ d.dmaSteps addresses := rfl
  rw [← Script.perform_append, ← Script.perform_append, ← hscript, Script.perform_eq, configure]
  cases (d.script source dir addresses).stop? <;> rfl

end ArrayImage
