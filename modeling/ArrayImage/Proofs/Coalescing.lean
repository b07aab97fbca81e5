import ArrayImage.Proofs.WriteLog
import ArrayImage.Section

/-!
# ArrayImage.Proofs.Coalescing

Which sections a log has. A log that holds exactly the words of some regions, one behind the other
with gaps between them, has these regions as its sections (`region_sections`): words of one region
are joined, and words of different ones are not.
-/

namespace ArrayImage

/-! ## Regions -/

namespace Region

def words (r : Region) : List Nat :=
  (List.range (r.size / 4)).map fun i => r.base + 4 * i

/-- There are words in the region, and they fill it. -/
def Whole (r : Region) : Prop :=
  0 < r.size ∧ r.size % 4 = 0

/-- The regions come one behind the other, with a gap after each of them. -/
def Spaced (rs : List Region) : Prop :=
  rs.Pairwise fun r s => r.base + r.size < s.base

theorem mem_words {r : Region} {o : Nat} :
    o ∈ r.words ↔ ∃ i < r.size / 4, o = r.base + 4 * i := by
  simp only [words, List.mem_map, List.mem_range]
  exact ⟨fun ⟨i, hi, he⟩ => ⟨i, hi, he.symm⟩, fun ⟨i, hi, he⟩ => ⟨i, hi, he.symm⟩⟩

theorem bounds_of_mem_words {r : Region} {o : Nat} (h : o ∈ r.words) :
    r.base ≤ o ∧ o + 4 ≤ r.base + r.size := by
  obtain ⟨i, hi, rfl⟩ := mem_words.mp h
  omega

theorem words_zero (base : Nat) : words ⟨base, 0⟩ = [] := by
  simp [words]

theorem words_succ (base n : Nat) :
    words ⟨base, 4 * (n + 1)⟩ = base :: words ⟨base + 4, 4 * n⟩ := by
  simp only [words, Nat.mul_div_cancel_left _ (show 0 < 4 by decide), List.range_succ_eq_map,
    List.map_cons, List.map_map]
  congr 1
  refine List.map_congr_left fun i _ => ?_
  simp only [Function.comp_apply]
  omega

theorem words_ascending (r : Region) : r.words.Pairwise (· < ·) := by
  rw [words, List.pairwise_map]
  exact List.pairwise_lt_range.imp fun h => by omega

theorem Spaced.words_ascending {rs : List Region} (h : Spaced rs) :
    (rs.flatMap words).Pairwise (· < ·) := by
  rw [List.pairwise_flatMap]
  refine ⟨fun r _ => r.words_ascending, h.imp fun {r s} hrs x hx y hy => ?_⟩
  have hx := bounds_of_mem_words hx
  have hy := bounds_of_mem_words hy
  omega

end Region

/-! ## Sections -/

namespace Section

def region (s : Section) : Region :=
  ⟨s.address, s.byteSize⟩

/-- Entries at the words of one region become one section, when nothing starts right behind it. -/
theorem foldr_cons_of_words {es : List (Nat × Word)} {base n : Nat} {rest : List Section}
    (hes : es.map Prod.fst = Region.words ⟨base, 4 * (n + 1)⟩)
    (hrest : ∀ s ∈ rest.head?, s.address ≠ base + 4 * (n + 1)) :
    es.foldr cons rest = ⟨base, es.map Prod.snd⟩ :: rest := by
  induction n generalizing base es with
  | zero =>
    rw [Region.words_succ] at hes
    obtain ⟨⟨a, v⟩, es, rfl, rfl, hnil⟩ := List.map_eq_cons_iff.mp hes
    have hes : es = [] := List.map_eq_nil_iff.mp (by rw [hnil, Nat.mul_zero, Region.words_zero])
    subst hes
    cases rest with
    | nil => rfl
    | cons s rest =>
      have hs := hrest s rfl
      exact if_neg fun h => hs (by simpa using h.symm)
  | succ n ih =>
    rw [Region.words_succ] at hes
    obtain ⟨⟨a, v⟩, es, rfl, rfl, hes⟩ := List.map_eq_cons_iff.mp hes
    rw [List.foldr_cons, ih hes fun s hs he => hrest s hs (by simp only at he ⊢; omega)]
    exact if_pos rfl

/-- Entries at the words of spaced regions are grouped into these regions. -/
theorem group_region {es : List (Nat × Word)} {rs : List Region}
    (hes : es.map Prod.fst = rs.flatMap Region.words) (hw : ∀ r ∈ rs, r.Whole)
    (hs : Region.Spaced rs) : (group es).map region = rs := by
  induction rs generalizing es with
  | nil =>
    have hnil : es = [] := List.map_eq_nil_iff.mp hes
    subst hnil
    rfl
  | cons r rs ih =>
    obtain ⟨hr, hs⟩ := List.pairwise_cons.mp hs
    obtain ⟨hwr, hw⟩ := List.forall_mem_cons.mp hw
    obtain ⟨es₁, es₂, rfl, h₁, h₂⟩ := List.map_eq_append_iff.mp hes
    have ih := ih h₂ hw hs
    obtain ⟨n, hn⟩ : ∃ n, r.size = 4 * (n + 1) := ⟨r.size / 4 - 1, by
      obtain ⟨hpos, hmod⟩ := hwr
      omega⟩
    have hlen : es₁.length = n + 1 := by
      have := congrArg List.length h₁
      simpa [Region.words, hn] using this
    have hrest : ∀ s ∈ (group es₂).head?, s.address ≠ r.base + 4 * (n + 1) := by
      intro s hs
      have hmem : s.region ∈ rs := ih ▸ List.mem_map_of_mem (List.mem_of_mem_head? hs)
      have hlt := hr _ hmem
      simp only [region] at hlt
      omega
    have hsec : (group (es₁ ++ es₂)) = ⟨r.base, es₁.map Prod.snd⟩ :: group es₂ := by
      rw [group, List.foldr_append]
      refine foldr_cons_of_words ?_ hrest
      rw [h₁, ← hn]
    rw [hsec, List.map_cons, ih]
    congr 1
    obtain ⟨base, size⟩ := r
    simp only [region, byteSize, List.length_map, hlen, Region.mk.injEq, true_and]
    exact hn.symm

end Section

/-! ## Logs -/

theorem eq_of_ascending {α : Type} {f : α → Nat} {l l' : List α} (hl : l.Pairwise (f · < f ·))
    (hl' : l'.Pairwise (f · < f ·)) (h : ∀ a, a ∈ l ↔ a ∈ l') : l = l' := by
  have hne : ∀ {a b : α}, f a < f b → a ≠ b := by
    rintro a _ hab rfl
    exact Nat.lt_irrefl _ hab
  refine List.Perm.eq_of_pairwise (fun a b _ _ hab hba => ?_) hl hl' ?_
  · exact absurd hba (Nat.lt_asymm hab)
  · exact (List.perm_ext_iff_of_nodup (hl.imp hne) (hl'.imp hne)).mpr h

/-- In ascending order, what is not last is below something. -/
theorem lt_of_mem_dropLast {es : List (Nat × Word)} (hes : es.Pairwise (·.1 < ·.1))
    {e : Nat × Word} (he : e ∈ es.dropLast) : ∃ x ∈ es, e.1 < x.1 := by
  have hnil : es ≠ [] := fun h => by simp [h] at he
  rw [← List.dropLast_concat_getLast hnil, List.pairwise_append] at hes
  exact ⟨es.getLast hnil, List.getLast_mem hnil, hes.2.2 e he _ List.mem_cons_self⟩

/-- A log has sections when no word reaches past the end of the address space. -/
theorem WriteLog.sections_eq_group {log : WriteLog}
    (h : ∀ a, (log.get? a).isSome → a ≤ 0xFFFFFFFFFFFFFFFC) :
    log.sections = .ok (Section.group log.entries) := by
  rw [WriteLog.sections, if_pos]
  rw [List.all_eq_true]
  intro e he
  obtain ⟨x, hx, hlt⟩ := lt_of_mem_dropLast log.entries_ascending he
  have hle := h x.1 (by rw [mem_entries_iff.mp hx]; rfl)
  exact decide_eq_true (show e.1 + 4 < 0x10000000000000000 by omega)

theorem WriteLog.eq_group_of_sections {log : WriteLog} {sections : List Section}
    (h : log.sections = .ok sections) : sections = Section.group log.entries := by
  unfold WriteLog.sections at h
  split at h
  · exact (Except.ok.inj h).symm
  · cases h

/-- A log that holds the words of some spaced regions and nothing else has these sections. -/
theorem WriteLog.region_sections {log : WriteLog} {sections : List Section} {rs : List Region}
    (h : log.sections = .ok sections) (hw : ∀ r ∈ rs, r.Whole) (hs : Region.Spaced rs)
    (hmem : ∀ a, (log.get? a).isSome ↔ a ∈ rs.flatMap Region.words) :
    sections.map Section.region = rs := by
  rw [eq_group_of_sections h]
  refine Section.group_region ?_ hw hs
  refine eq_of_ascending (f := id) (List.pairwise_map.mpr log.entries_ascending)
    hs.words_ascending ?_
  intro a
  rw [← hmem, List.mem_map, Option.isSome_iff_exists]
  constructor
  · rintro ⟨⟨a, v⟩, hav, rfl⟩
    exact ⟨v, mem_entries_iff.mp hav⟩
  · rintro ⟨v, hv⟩
    exact ⟨(a, v), mem_entries_iff.mpr hv, rfl⟩

end ArrayImage
