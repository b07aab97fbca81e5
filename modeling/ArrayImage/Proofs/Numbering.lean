import ArrayImage.Proofs.Links
import Mathlib.Data.List.Nodup
import Std.Data.HashMap

/-!
# ArrayImage.Proofs.Numbering

The slot of a label is what numbering all labels leaves in a table.

Labels are numbered from first to last, and a number that does not fit into a byte is written as
`noDescriptor`, which is itself the largest byte. A label that comes again takes its later number,
so the table holds the place of its last use (`getElem?_slotTable`), and `slotOf` is the look-up in
this table. `slots_assigned` is the main statement: slots below `noDescriptor` tell labels apart,
and labels without repetitions have them in order and without gaps.
-/

namespace ArrayImage

/-! ## Last places -/

/-- The label is at this place and at no later one. -/
structure LastAt (labels : List String) (label : String) (i : Nat) : Prop where
  here : labels[i]? = some label
  later : ∀ j, i < j → labels[j]? ≠ some label

theorem lastIndex?_eq_none_iff {l : List String} {a : String} : lastIndex? a l = none ↔ a ∉ l := by
  constructor
  · intro h ha
    induction l with
    | nil => cases ha
    | cons x l ih =>
      rw [lastIndex?] at h
      cases hl : lastIndex? a l with
      | some i => simp [hl] at h
      | none =>
        simp only [hl] at h
        rcases List.mem_cons.mp ha with rfl | ha
        · rw [if_pos rfl] at h
          cases h
        · exact ih hl ha
  · exact lastIndex?_of_notMem

theorem lastIndex?_eq_some_iff {l : List String} {a : String} {i : Nat} :
    lastIndex? a l = some i ↔ LastAt l a i := by
  induction l generalizing i with
  | nil =>
    constructor
    · intro h
      cases h
    · intro h
      cases h.here
  | cons x l ih =>
    rw [lastIndex?]
    cases hl : lastIndex? a l with
    | some j =>
      obtain ⟨hj, hlater⟩ := ih.mp hl
      constructor
      · intro h
        cases h
        refine ⟨hj, fun k hk => ?_⟩
        cases k with
        | zero => omega
        | succ k => exact hlater k (by omega)
      · intro h
        -- the place in the whole list cannot lie before or behind the one in the rest
        rcases Nat.lt_trichotomy i (j + 1) with hi | rfl | hi
        · exact absurd hj (h.later (j + 1) hi)
        · rfl
        · cases i with
          | zero => omega
          | succ i => exact absurd h.here (hlater i (by omega))
    | none =>
      have hnot : a ∉ l := lastIndex?_eq_none_iff.mp hl
      constructor
      · intro h
        obtain ⟨rfl, hi⟩ : x = a ∧ 0 = i := by simpa using h
        subst hi
        refine ⟨rfl, fun k hk hx => ?_⟩
        cases k with
        | zero => omega
        | succ k => exact hnot (List.mem_of_getElem? hx)
      · intro h
        cases i with
        | zero => exact if_pos (Option.some.inj h.here)
        | succ i => exact absurd (List.mem_of_getElem? (l := l) h.here) hnot

/-! ## The table -/

/-- The slot for the label at a place. What does not fit into a byte has none. -/
def slotNumber (i : Nat) : Nat :=
  if i < 0x100 then i else noDescriptor

theorem slotNumber_eq_min (i : Nat) : slotNumber i = min i noDescriptor := by
  rw [slotNumber, noDescriptor]
  split <;> omega

/-- The slots of some labels, where a later use of a label replaces an earlier one. -/
def slotTable (labels : List String) : Std.HashMap String Nat :=
  .ofList (labels.zipIdx.map fun x => (x.1, slotNumber x.2))

/-- Labels that are numbered from `n` on replace what a table has for them. -/
theorem getElem?_insertMany_zipIdx (table : Std.HashMap String Nat) (labels : List String)
    (label : String) (n : Nat) :
    (table.insertMany ((labels.zipIdx n).map fun x => (x.1, slotNumber x.2)))[label]? =
      ((lastIndex? label labels).map fun i => slotNumber (n + i)).or table[label]? := by
  induction labels generalizing table n with
  | nil => rfl
  | cons l labels ih =>
    rw [List.zipIdx_cons, List.map_cons, Std.HashMap.insertMany_cons, ih,
      Std.HashMap.getElem?_insert, lastIndex?]
    cases lastIndex? label labels with
    | some i => simp [Nat.add_assoc, Nat.add_comm 1 i]
    | none => by_cases hl : l = label <;> simp [hl]

theorem getElem?_slotTable (labels : List String) (label : String) :
    (slotTable labels)[label]? = (lastIndex? label labels).map slotNumber := by
  rw [slotTable, Std.HashMap.ofList_eq_insertMany_empty, getElem?_insertMany_zipIdx,
    Std.HashMap.getElem?_empty, Option.or_none]
  simp only [Nat.zero_add]

/-- Links and starts look their labels up in the table. -/
theorem slotOf_eq_getD (labels : List String) (label : String) :
    slotOf labels label = (slotTable labels)[label]?.getD noDescriptor := by
  rw [getElem?_slotTable, slotOf]
  cases lastIndex? label labels with
  | none => rfl
  | some i => exact (slotNumber_eq_min i).symm

theorem mem_slotTable {labels : List String} {label : String} :
    label ∈ slotTable labels ↔ label ∈ labels := by
  rw [Std.HashMap.mem_iff_isSome_getElem?, getElem?_slotTable, Option.isSome_map,
    ← not_iff_not, ← lastIndex?_eq_none_iff, Option.not_isSome_iff_eq_none]

/-! ## Distinct labels -/

theorem slotOf_getElem {labels : List String} (h : labels.Nodup) {i : Nat}
    (hi : i < labels.length) : slotOf labels labels[i] = min i noDescriptor := by
  have hlast : lastIndex? labels[i] labels = some i := by
    rw [lastIndex?_eq_idxOf? h, idxOf?_eq_some_iff_of_nodup h]
    exact List.getElem?_eq_getElem hi
  rw [slotOf, hlast]

theorem map_slotOf {labels : List String} (h : labels.Nodup) :
    labels.map (slotOf labels) = (List.range labels.length).map (min · noDescriptor) := by
  refine List.ext_getElem (by simp) fun i hi _ => ?_
  rw [List.length_map] at hi
  rw [List.getElem_map, List.getElem_map, List.getElem_range, slotOf_getElem h hi]

theorem filter_lt_map_min_range (n k : Nat) :
    ((List.range n).map (min · k)).filter (· < k) = List.range (min n k) := by
  induction n with
  | zero => simp
  | succ n ih =>
    rw [List.range_succ, List.map_append, List.filter_append, ih]
    by_cases hn : n < k
    · rw [Nat.min_eq_left (Nat.le_of_lt hn), Nat.min_eq_left hn, List.range_succ]
      simp [Nat.min_eq_left (Nat.le_of_lt hn), hn]
    · have hk : k ≤ n := Nat.le_of_not_lt hn
      simp [Nat.min_eq_right hk, Nat.min_eq_right (Nat.le_succ_of_le hk)]

/-- The table has the labels of the list and no others, each with its last place as far as a slot
below `noDescriptor` can say it. Such slots tell labels apart, and distinct labels have them in
order and without gaps. -/
theorem slots_assigned (labels : List String) :
    (∀ label, label ∈ slotTable labels ↔ label ∈ labels) ∧
      (∀ label, slotOf labels label = (slotTable labels)[label]?.getD 0xFF) ∧
      (∀ label ∈ labels, ∃ i, LastAt labels label i ∧
        (slotTable labels)[label]? = some (if i < 255 then i else 0xFF)) ∧
      (∀ a b, a ≠ b → slotOf labels a = slotOf labels b → slotOf labels a = 0xFF) ∧
      (labels.Nodup →
        (labels.map (slotOf labels)).filter (· < 0xFF) = List.range (min labels.length 0xFF)) := by
  refine ⟨fun _ => mem_slotTable, slotOf_eq_getD labels, ?_, ?_, ?_⟩
  · intro label hl
    cases hi : lastIndex? label labels with
    | none => exact absurd hl (lastIndex?_eq_none_iff.mp hi)
    | some i =>
      refine ⟨i, lastIndex?_eq_some_iff.mp hi, ?_⟩
      rw [getElem?_slotTable, hi, Option.map_some, slotNumber_eq_min, noDescriptor]
      congr 1
      split <;> omega
  · intro a b hne hab
    have hle : slotOf labels a ≤ noDescriptor := by
      rw [slotOf]
      split <;> omega
    rcases Nat.lt_or_eq_of_le hle with hlt | heq
    · exact absurd (slotOf_inj rfl hab.symm hlt) hne
    · exact heq
  · intro h
    rw [map_slotOf h]
    exact filter_lt_map_min_range _ _

def manyLabel (n : Nat) : String :=
  String.ofList (List.replicate n 'b')

theorem manyLabel_inj {m n : Nat} (h : manyLabel m = manyLabel n) : m = n := by
  have hlength := congrArg (List.length ∘ String.toList) h
  simpa [manyLabel] using hlength

def manyLabels : List String :=
  (List.range 257).map manyLabel

theorem manyLabels_nodup : manyLabels.Nodup :=
  List.nodup_range.map fun _ _ => manyLabel_inj

theorem slotOf_manyLabel {n : Nat} (hn : n < 257) :
    slotOf manyLabels (manyLabel n) = min n noDescriptor := by
  have hlength : n < manyLabels.length := by simpa [manyLabels] using hn
  rw [← slotOf_getElem manyLabels_nodup hlength]
  simp [manyLabels]

/-- A label that is used again has its later place, and of many labels the surplus ones share the
slot that is none. -/
theorem manyLabels_assigned :
    (("b" ∈ ["b", "c", "b", "d"] ∧ ∃ i, LastAt ["b", "c", "b", "d"] "b" i ∧
        (slotTable ["b", "c", "b", "d"])["b"]? = some (if i < 255 then i else 0xFF)) ∧
      (slotTable ["b", "c", "b", "d"])["b"]? = some 2) ∧
    (manyLabel 255 ≠ manyLabel 256 ∧
      slotOf manyLabels (manyLabel 255) = slotOf manyLabels (manyLabel 256) ∧
      slotOf manyLabels (manyLabel 255) = 0xFF) ∧
    (manyLabels.Nodup ∧
      (manyLabels.map (slotOf manyLabels)).filter (· < 0xFF) = List.range 0xFF) := by
  obtain ⟨-, -, hlast, -⟩ := slots_assigned ["b", "c", "b", "d"]
  obtain ⟨-, -, -, hshared, hrange⟩ := slots_assigned manyLabels
  have hne : manyLabel 255 ≠ manyLabel 256 := fun h => absurd (manyLabel_inj h) (by decide)
  have hsame : slotOf manyLabels (manyLabel 255) = slotOf manyLabels (manyLabel 256) := by
    rw [slotOf_manyLabel (by decide), slotOf_manyLabel (by decide)]
    rfl
  refine ⟨⟨⟨by decide, hlast "b" (by decide)⟩, ?_⟩, ⟨hne, hsame, hshared _ _ hne hsame⟩,
    manyLabels_nodup, ?_⟩
  · rw [getElem?_slotTable]
    decide
  · rw [hrange manyLabels_nodup, show manyLabels.length = 257 by simp [manyLabels]]
    rfl

end ArrayImage
