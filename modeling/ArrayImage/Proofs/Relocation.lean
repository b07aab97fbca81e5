import ArrayImage.Proofs.Independence
import ArrayImage.Proofs.Skeleton
import ArrayImage.Proofs.Uniformity
import Mathlib.Data.List.Forall2

/-!
# ArrayImage.Proofs.Relocation

A design compiles to the same image in every array, up to the addresses.

A run in another array makes the same writes at the same distance (`WriteLog.Relocated`), one write
after the other. So the words of both logs are in the same order and at the same distances, and
neighbours are neighbours (`Section.group_map_shift`). The top array is no exception: the last word
of a window ends where the address space does, and no address behind it is needed
(`Device.address_le_of_touches`). `Device.compile_relocated` is the whole statement.
-/

namespace ArrayImage

/-- The number of bytes that the windows of one array take. -/
def arraySize : Nat := 0x40000000

/-! ## Registers -/

namespace Register

/-- Where a register is in its array. -/
def place (r : Register) : Nat :=
  r.tile.column * 0x800000 + r.tile.row * 0x40000 + r.offset

theorem address_eq (r : Register) : r.address = r.tile.array * arraySize + r.place := by
  have ho := r.offset_lt
  rw [windowSize_eq] at ho
  rw [address, TileId.address, place, arraySize, windowSize_eq, Nat.mod_eq_of_lt ho]
  omega

theorem place_lt (r : Register) : r.place < arraySize := by
  have ho := r.offset_lt
  have hc := r.tile.column_lt
  have hr := r.tile.row_lt
  rw [windowSize_eq] at ho
  rw [place, arraySize]
  omega

end Register

theorem Write.address_inArray (b : ArrayIndex) (w : Write) :
    (w.inArray b).address = b * arraySize + w.register.place :=
  (w.register.inArray b).address_eq

/-! ## Logs -/

/-- The second log has in the array `b` what the first one has in the array `a`, and neither has
anything else. -/
structure WriteLog.Relocated (a b : Nat) (log log' : WriteLog) : Prop where
  agree : ∀ k < arraySize, log'.get? (b * arraySize + k) = log.get? (a * arraySize + k)
  source : ∀ x, (log.get? x).isSome → x / arraySize = a
  target : ∀ x, (log'.get? x).isSome → x / arraySize = b

namespace WriteLog.Relocated

variable {a : Nat} {b : ArrayIndex} {log log' : WriteLog}

theorem empty (a b : Nat) : Relocated a b .empty .empty where
  agree k _ := by rw [get?_empty, get?_empty]
  source x h := by simp at h
  target x h := by simp at h

/-- The same write in both arrays keeps the logs the same. -/
theorem apply (h : Relocated a b log log') {w : Write} (hw : w.register.tile.array = a) :
    Relocated a b (log.apply w) (log'.apply (w.inArray b)) := by
  have hsource : w.address = a * arraySize + w.register.place := hw ▸ w.register.address_eq
  have htarget := w.address_inArray b
  have hlt := w.register.place_lt
  have hdiv : ∀ n, (n * arraySize + w.register.place) / arraySize = n := by
    intro n
    rw [arraySize] at hlt ⊢
    omega
  constructor
  · intro k hk
    rw [get?_apply, get?_apply, hsource, htarget, h.agree k hk]
    by_cases hp : w.register.place = k
    · rw [if_pos (by rw [hp]), if_pos (by rw [hp])]
      rfl
    · rw [if_neg (by omega), if_neg (by omega)]
  · intro x hx
    rw [get?_apply] at hx
    split at hx
    · rename_i he
      rw [← he, hsource, hdiv]
    · exact h.source x hx
  · intro x hx
    rw [get?_apply] at hx
    split at hx
    · rename_i he
      rw [← he, htarget, hdiv]
    · exact h.target x hx

theorem applyAll {ws : List Write} (h : Relocated a b log log')
    (hws : ∀ w ∈ ws, w.register.tile.array = a) :
    Relocated a b (log.applyAll ws) (log'.applyAll (ws.map (Write.inArray b))) := by
  induction ws generalizing log log' with
  | nil => exact h
  | cons w ws ih =>
    rw [List.map_cons, applyAll_cons, applyAll_cons]
    exact ih (h.apply (hws w List.mem_cons_self)) fun x hx => hws x (List.mem_cons_of_mem _ hx)

end WriteLog.Relocated

/-! ## Entries and sections -/

def shiftEntry (k : Nat) (e : Nat × Word) : Nat × Word :=
  (k + e.1, e.2)

/-- Both logs have the same entries in the same order, each from where its array starts. -/
theorem WriteLog.Relocated.exists_entries {a b : Nat} {log log' : WriteLog}
    (h : Relocated a b log log') : ∃ es : List (Nat × Word),
      log.entries = es.map (shiftEntry (a * arraySize)) ∧
      log'.entries = es.map (shiftEntry (b * arraySize)) := by
  have hmem : ∀ e ∈ log.entries, a * arraySize + e.1 % arraySize = e.1 := by
    intro e he
    rw [← h.source e.1 (by rw [mem_entries_iff.mp he]; rfl), Nat.mul_comm, Nat.div_add_mod]
  refine ⟨log.entries.map fun e => (e.1 % arraySize, e.2), ?_, ?_⟩
  · rw [List.map_map]
    refine (List.map_id' _).symm.trans (List.map_congr_left fun e he => ?_)
    exact Prod.ext (hmem e he).symm rfl
  · rw [List.map_map]
    refine eq_of_ascending (f := Prod.fst) log'.entries_ascending ?_ fun x => ?_
    · rw [List.pairwise_map]
      refine log.entries_ascending.imp_of_mem fun hx hy hxy => ?_
      have hx := hmem _ hx
      have hy := hmem _ hy
      show b * arraySize + _ % arraySize < b * arraySize + _ % arraySize
      omega
    · rw [List.mem_map]
      constructor
      · intro hx
        have hget := mem_entries_iff.mp hx
        have hx1 : b * arraySize + x.1 % arraySize = x.1 := by
          rw [← h.target x.1 (by rw [hget]; rfl), Nat.mul_comm, Nat.div_add_mod]
        have hk : x.1 % arraySize < arraySize := Nat.mod_lt _ (by decide)
        refine ⟨(a * arraySize + x.1 % arraySize, x.2), mem_entries_iff.mpr ?_, ?_⟩
        · rw [← h.agree _ hk, hx1, hget]
        · show (b * arraySize + (a * arraySize + x.1 % arraySize) % arraySize, x.2) = x
          rw [Nat.mul_add_mod_self_right, Nat.mod_mod, hx1]
      · rintro ⟨e, he, rfl⟩
        refine mem_entries_iff.mpr ?_
        have hk : e.1 % arraySize < arraySize := Nat.mod_lt _ (by decide)
        show log'.get? (b * arraySize + e.1 % arraySize) = some e.2
        rw [h.agree _ hk, hmem e he]
        exact mem_entries_iff.mp he

namespace Section

def shift (k : Nat) (s : Section) : Section :=
  { s with address := k + s.address }

@[simp] theorem shift_address (k : Nat) (s : Section) : (s.shift k).address = k + s.address := rfl

@[simp] theorem shift_data (k : Nat) (s : Section) : (s.shift k).data = s.data := rfl

theorem cons_shift (k : Nat) (e : Nat × Word) (sections : List Section) :
    cons (shiftEntry k e) (sections.map (shift k)) = (cons e sections).map (shift k) := by
  cases sections with
  | nil => rfl
  | cons s rest =>
    have hadj : (shiftEntry k e).1 + 4 = (s.shift k).address ↔ e.1 + 4 = s.address := by
      rw [shiftEntry, shift_address]
      omega
    simp only [List.map_cons, cons, hadj]
    split <;> rfl

/-- Entries at a distance are grouped into sections at that distance. -/
theorem group_map_shift (k : Nat) (es : List (Nat × Word)) :
    group (es.map (shiftEntry k)) = (group es).map (shift k) := by
  induction es with
  | nil => rfl
  | cons e es ih =>
    rw [List.map_cons, group, List.foldr_cons, ← group, ih, cons_shift]
    rfl

/-- A whole number of arrays away, a section has the same name. -/
theorem name?_shift (n : Nat) (s : Section) : (s.shift (n * arraySize)).name? = s.name? := by
  have hmod : (n * arraySize + s.address) % windowSize = s.address % windowSize := by
    rw [arraySize, windowSize_eq]
    omega
  rw [name?, name?, regionName?, regionName?, shift, hmod]

/-- The same section for the array `b` as one for the array `a`. -/
structure Moved (a b : ArrayIndex) (s s' : Section) : Prop where
  data : s'.data = s.data
  name : s'.name? = s.name?
  distance : (s'.address : Int) - s.address = ((b.val : Int) - a.val) * 0x40000000

theorem moved_shift (a b : ArrayIndex) (s : Section) :
    Moved a b (s.shift (a.val * arraySize)) (s.shift (b.val * arraySize)) := by
  constructor
  · rw [shift_data, shift_data]
  · rw [name?_shift, name?_shift]
  · rw [shift_address, shift_address, arraySize]
    omega

end Section

/-! ## Runs in two arrays -/

/-- Two diagnostics say the same, perhaps of different arrays. -/
structure Diagnostic.Alike (g g' : Diagnostic) : Prop where
  kind : g'.kind = g.kind
  column : g'.tile.column = g.tile.column
  row : g'.tile.row = g.tile.row
  message : g'.message = g.message

/-- What comes of a design in the array `a`, and what of the same design in the array `b`. -/
inductive Relocated (a b : ArrayIndex) : Except Stop Report → Except Stop Report → Prop where
  /-- The same precondition is broken. -/
  | fault (f : Fault) : Relocated a b (.error (.fault f)) (.error (.fault f))
  /-- The same program file cannot be trusted. -/
  | abort {f f' : LoadFailure} (column : f'.tile.column = f.tile.column)
    (row : f'.tile.row = f.tile.row) (path : f'.path = f.path) (cause : f'.cause = f.cause) :
    Relocated a b (.error (.abort f)) (.error (.abort f'))
  /-- The same sections are reported, as far apart as the arrays, with the same diagnostics. -/
  | report {r r' : Report} (sections : List.Forall₂ (Section.Moved a b) r.sections r'.sections)
    (diagnostics : List.Forall₂ Diagnostic.Alike r.diagnostics r'.diagnostics)
    (words : r'.words = r.words) : Relocated a b (.ok r) (.ok r')

namespace Device

variable {d : Device} {source : ProgramSource} {dir : String} {addresses : AddressSource}

/-- No word that a run writes reaches past the end of the address space. -/
theorem address_le_of_touches (hs : (d.script source dir addresses).Completes) {x : Nat}
    (hx : (d.script source dir addresses).Touches x) : x ≤ 0xFFFFFFFFFFFFFFFC := by
  have hwrite : ∀ w : Write, w.register.offset + 4 ≤ windowSize → w.address ≤ 0xFFFFFFFFFFFFFFFC :=
    fun w h => w.register.tile.address_le h
  rw [script, Script.touches_append, Script.touches_append] at hx
  rcases hx with (hx | ⟨w, hw, rfl⟩) | ⟨w, hw, rfl⟩
  · obtain ⟨y, -, t, -, h⟩ := (touches_tileSteps_iff (completes_tileSteps_of_script hs)).mp hx
    rcases h with ⟨r, hr, o, ho, rfl⟩ | ⟨-, o, ⟨core, -, image, -, hfits, s, hmem, hplaces⟩, rfl⟩
    · exact t.address_le (Nat.le_trans (Region.bounds_of_mem_words ho).2
        (y.kind.resetRegions_bounds r hr).2.2)
    · exact t.address_le (hplaces.bound (ProgramImage.verdict_eq_fits hfits s hmem))
  · refine hwrite w ?_
    rcases d.isStream_streamSteps w hw with ⟨ho, -⟩ | ⟨ho, -⟩
    · have := ho.masterBase_le
      rw [windowSize_eq] at this ⊢
      omega
    · rcases ho with ho | ho <;> rw [ho] <;> decide
  · refine hwrite w (Nat.le_trans ?_ (show RegisterMap.shimMux + 4 ≤ windowSize by decide))
    have := (d.isDma_dmaSteps addresses w hw).offset_lt
    omega

/-- A run that does not end early has a report. -/
theorem compile_of_completes (hs : (d.script source dir addresses).Completes) :
    d.compile source dir addresses =
      .ok ⟨Section.group ((d.script source dir addresses).applyTo .empty).entries,
        (d.script source dir addresses).diagnostics,
        ((d.script source dir addresses).applyTo .empty).size⟩ := by
  have hsections : ((d.script source dir addresses).applyTo .empty).sections =
      .ok (Section.group ((d.script source dir addresses).applyTo .empty).entries) := by
    refine WriteLog.sections_eq_group fun x hx => ?_
    rcases (Script.isSome_get?_applyTo hs .empty x).mp hx with hold | hx
    · simp at hold
    · exact address_le_of_touches hs hx
  simp only [compile, configure_eq_ok_iff.mpr ⟨hs, rfl, rfl⟩, hsections]

theorem compile_of_stop {stop : Stop} (hs : (d.script source dir addresses).stop? = some stop) :
    d.compile source dir addresses = .error stop := by
  simp only [compile, configure, hs]

variable (d source dir addresses) (a b : ArrayIndex)

theorem script_inArray_inArray : (d.inArray b).script source dir addresses =
    ((d.inArray a).script source dir addresses).map (Step.inArray b) := by
  have ha : (d.inArray a).arrayOffset.toNat < 0x400000000 := by
    rw [toNat_arrayOffset_inArray]
    exact a.isLt
  rw [← script_inArray source dir addresses ha b]
  rfl

theorem array_of_write_mem {w : Write}
    (hw : .write w ∈ (d.inArray a).script source dir addresses) : w.register.tile.array = a := by
  rw [script_inArray_inArray d source dir addresses a a] at hw
  obtain ⟨x, -, hx⟩ := List.mem_map.mp hw
  cases x <;> cases hx
  rfl

/-- A design compiles in every array or in none. Where it does, the sections are the same up to the
distance of the arrays; where it does not, it fails for the same reason. -/
theorem compile_relocated : Relocated a b ((d.inArray a).compile source dir addresses)
    ((d.inArray b).compile source dir addresses) := by
  have hmap := script_inArray_inArray d source dir addresses a b
  have hstop := Script.stop?_map_inArray b ((d.inArray a).script source dir addresses)
  rw [← hmap] at hstop
  cases hs : ((d.inArray a).script source dir addresses).stop? with
  | some stop =>
    rw [hs] at hstop
    rw [compile_of_stop hs, compile_of_stop hstop]
    cases stop with
    | fault f => exact .fault f
    | abort f => exact .abort rfl rfl rfl rfl
  | none =>
    rw [hs] at hstop
    have hlog : WriteLog.Relocated a b (((d.inArray a).script source dir addresses).applyTo .empty)
        (((d.inArray b).script source dir addresses).applyTo .empty) := by
      rw [hmap, Script.applyTo, Script.applyTo, Script.writes_map_inArray]
      exact (WriteLog.Relocated.empty a b).applyAll fun w hw =>
        array_of_write_mem d source dir addresses a ((Script.mem_writes_iff hs).mp hw)
    obtain ⟨es, hes, hes'⟩ := hlog.exists_entries
    rw [compile_of_completes hs, compile_of_completes hstop]
    refine .report ?_ ?_ ?_
    · rw [hes, hes', Section.group_map_shift, Section.group_map_shift, List.forall₂_map_left_iff,
        List.forall₂_map_right_iff]
      exact List.forall₂_same.mpr fun s _ => Section.moved_shift a b s
    · rw [hmap, Script.diagnostics_map_inArray, List.forall₂_map_right_iff]
      exact List.forall₂_same.mpr fun g _ => ⟨rfl, rfl, rfl, rfl⟩
    · simp only [WriteLog.size, ← Std.ExtTreeMap.length_toList]
      show (WriteLog.entries _).length = (WriteLog.entries _).length
      rw [hes, hes', List.length_map, List.length_map]

end Device
end ArrayImage
