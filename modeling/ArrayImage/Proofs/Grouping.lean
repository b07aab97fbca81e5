import ArrayImage.Proofs.Coalescing
import Mathlib.Data.List.Chain

/-!
# ArrayImage.Proofs.Grouping

Sections and the entries of a log say the same.

Some sections are `Coalesced` from entries when none of them is empty, their words are the entries
in order, and neighbouring entries share a section exactly when their addresses are four apart.
Entries in ascending order are coalesced in one way only, which is the one of `Section.group`
(`coalesced_iff`), and sections with gaps between them are what their words are grouped into
(`group_expand`).

* `sections_eq_foldlM`: the sections of a log are what a pass over its entries makes that keeps
  the last section open and computes where it ends before each further entry.
* `sections_coalesced`: both ways of the correspondence, up to the last word of the address space.
-/

namespace ArrayImage
namespace Section

def entries (s : Section) : List (Nat × Word) :=
  s.data.mapIdx fun i word => (s.address + 4 * i, word)

def expand (sections : List Section) : List (Nat × Word) :=
  sections.flatMap entries

/-- Two entries are in one section. -/
def Together (sections : List Section) (x y : Nat × Word) : Prop :=
  ∃ s ∈ sections, x ∈ s.entries ∧ y ∈ s.entries

/-- No section ends where the next one begins. -/
def Separated (sections : List Section) : Prop :=
  sections.IsChain fun s t => s.address + s.byteSize ≠ t.address

/-- The sections have the words of the entries, none of them is empty, and neighbouring entries are
in one section exactly when their addresses are four apart. -/
structure Coalesced (es : List (Nat × Word)) (sections : List Section) : Prop where
  nonempty : ∀ s ∈ sections, s.data ≠ []
  expand_eq : expand sections = es
  together_iff : es.IsChain fun x y => (Together sections x y ↔ y.1 = x.1 + 4)

/-! ## Words of sections -/

theorem entries_map_fst (s : Section) : s.entries.map Prod.fst = s.region.words := by
  refine List.ext_getElem ?_ fun i _ _ => ?_
  · simp [entries, region, Region.words, byteSize]
  · simp [entries, region, Region.words]

theorem entries_map_snd (s : Section) : s.entries.map Prod.snd = s.data := by
  refine List.ext_getElem (by simp [entries]) fun i _ _ => ?_
  simp [entries]

theorem entries_cons (a : Nat) (w : Word) (ws : List Word) :
    entries ⟨a, w :: ws⟩ = (a, w) :: entries ⟨a + 4, ws⟩ := by
  simp only [entries, List.mapIdx_cons, Nat.mul_zero, Nat.add_zero, List.cons.injEq, true_and]
  congr 1
  funext i w
  rw [Prod.mk.injEq]
  exact ⟨by omega, rfl⟩

theorem entries_ne_nil {s : Section} (h : s.data ≠ []) : s.entries ≠ [] := by
  simpa [entries] using h

theorem head?_entries {s : Section} (h : s.data ≠ []) :
    ∃ v, s.entries.head? = some (s.address, v) := by
  rw [entries, List.head?_mapIdx]
  exact ⟨s.data.head h, by rw [List.head?_eq_some_head h]; rfl⟩

theorem getLast?_entries {s : Section} (h : s.data ≠ []) :
    ∃ a v, s.entries.getLast? = some (a, v) ∧ a + 4 = s.address + s.byteSize := by
  have hlen : 0 < s.data.length := List.length_pos_iff.mpr h
  refine ⟨s.address + 4 * (s.data.length - 1), s.data.getLast h, ?_, ?_⟩
  · rw [entries, List.getLast?_mapIdx, List.getLast?_eq_some_getLast h]
    rfl
  · rw [byteSize]
    omega

/-- The words of one section follow each other. -/
theorem isChain_entries (s : Section) : s.entries.IsChain fun x y => y.1 = x.1 + 4 := by
  rw [List.isChain_iff_getElem]
  intro i hi
  simp only [entries, List.getElem_mapIdx]
  omega

/-! ## Grouping -/

theorem expand_cons (e : Nat × Word) (sections : List Section) :
    expand (cons e sections) = e :: expand sections := by
  cases sections with
  | nil => rfl
  | cons s rest =>
    simp only [cons]
    split
    · rename_i hadj
      simp only [expand, List.flatMap_cons, entries_cons, hadj, List.cons_append]
    · rfl

/-- Grouping keeps all entries in their order. -/
theorem expand_group (es : List (Nat × Word)) : expand (group es) = es := by
  induction es with
  | nil => rfl
  | cons e es ih => rw [group, List.foldr_cons, expand_cons, ← group, ih]

theorem ne_nil_of_mem_cons {e : Nat × Word} {sections : List Section}
    (h : ∀ s ∈ sections, s.data ≠ []) : ∀ s ∈ cons e sections, s.data ≠ [] := by
  cases sections with
  | nil => simp [cons]
  | cons s rest =>
    have hrest := (List.forall_mem_cons.mp h).2
    simp only [cons]
    split
    · exact List.forall_mem_cons.mpr ⟨List.cons_ne_nil _ _, hrest⟩
    · exact List.forall_mem_cons.mpr ⟨List.cons_ne_nil _ _, h⟩

theorem ne_nil_of_mem_group (es : List (Nat × Word)) : ∀ s ∈ group es, s.data ≠ [] := by
  induction es with
  | nil => simp [group]
  | cons e es ih => exact ne_nil_of_mem_cons ih

/-- An entry that is joined to a section does not move its end. -/
theorem separated_cons {e : Nat × Word} {sections : List Section} (h : Separated sections) :
    Separated (cons e sections) := by
  cases sections with
  | nil => exact List.isChain_singleton _
  | cons s rest =>
    simp only [cons]
    split
    · rename_i hadj
      cases rest with
      | nil => exact List.isChain_singleton _
      | cons t rest =>
        obtain ⟨hst, hrest⟩ := List.isChain_cons_cons.mp h
        refine List.isChain_cons_cons.mpr ⟨?_, hrest⟩
        simp only [byteSize, List.length_cons] at hst ⊢
        omega
    · rename_i hgap
      exact List.isChain_cons_cons.mpr ⟨hgap, h⟩

theorem separated_group (es : List (Nat × Word)) : Separated (group es) := by
  induction es with
  | nil => exact List.isChain_nil
  | cons e es ih => exact separated_cons ih

/-- Sections with gaps between them are what their words are grouped into. -/
theorem group_expand {sections : List Section} (hne : ∀ s ∈ sections, s.data ≠ [])
    (hsep : Separated sections) : group (expand sections) = sections := by
  induction sections with
  | nil => rfl
  | cons s rest ih =>
    obtain ⟨hs, hrest⟩ := List.forall_mem_cons.mp hne
    have ih := ih hrest (List.IsChain.tail hsep)
    obtain ⟨n, hn⟩ : ∃ n, s.data.length = n + 1 :=
      Nat.exists_eq_succ_of_ne_zero (mt List.length_eq_zero_iff.mp hs)
    have hwords : s.entries.map Prod.fst = Region.words ⟨s.address, 4 * (n + 1)⟩ := by
      rw [entries_map_fst, region, byteSize, hn]
    have hgap : ∀ t ∈ rest.head?, t.address ≠ s.address + 4 * (n + 1) := by
      intro t ht he
      obtain ⟨rest', rfl⟩ := List.head?_eq_some_iff.mp ht
      refine (List.isChain_cons_cons.mp hsep).1 ?_
      rw [byteSize, hn, he]
    rw [group] at ih ⊢
    rw [expand, List.flatMap_cons, List.foldr_append, ← expand, ih,
      foldr_cons_of_words hwords hgap, entries_map_snd]

/-! ## One way only -/

theorem pairwise_not_together {sections : List Section}
    (h : (expand sections).Pairwise (·.1 < ·.1)) :
    sections.Pairwise fun s t => ∀ x ∈ s.entries, ∀ y ∈ t.entries, ¬ Together sections x y := by
  -- an address that is in two sections would be below itself
  have hlt := List.pairwise_iff_getElem.mp (List.pairwise_flatMap.mp h).2
  rw [List.pairwise_iff_getElem]
  rintro i j hi hj hij x hx y hy ⟨u, hu, hxu, hyu⟩
  obtain ⟨k, hk, rfl⟩ := List.getElem_of_mem hu
  rcases Nat.lt_trichotomy k i with hki | rfl | hki
  · exact Nat.lt_irrefl _ (hlt k i hk hi hki x hxu x hx)
  · exact Nat.lt_irrefl _ (hlt k j hk hj hij y hyu y hy)
  · exact Nat.lt_irrefl _ (hlt i k hi hk hki x hx x hxu)

/-- In ascending order, neighbours share a section as they should exactly when there are gaps
between the sections. -/
theorem together_iff_separated {sections : List Section} (hne : ∀ s ∈ sections, s.data ≠ [])
    (h : (expand sections).Pairwise (·.1 < ·.1)) :
    ((expand sections).IsChain fun x y => (Together sections x y ↔ y.1 = x.1 + 4)) ↔
      Separated sections := by
  have hnil : [] ∉ sections.map entries := by
    rw [List.mem_map]
    rintro ⟨s, hs, he⟩
    exact entries_ne_nil (hne s hs) he
  have hinside : ∀ l ∈ sections.map entries,
      l.IsChain fun x y => (Together sections x y ↔ y.1 = x.1 + 4) := by
    intro l hl
    obtain ⟨s, hs, rfl⟩ := List.mem_map.mp hl
    rw [List.isChain_iff_getElem]
    intro i hi
    have hnext := List.isChain_iff_getElem.mp s.isChain_entries i hi
    exact iff_of_true ⟨s, hs, List.getElem_mem _, List.getElem_mem _⟩ hnext
  rw [expand, List.flatMap_def, List.isChain_flatten hnil, and_iff_right hinside, List.isChain_map,
    Separated, List.isChain_iff_getElem, List.isChain_iff_getElem]
  refine forall_congr' fun i => forall_congr' fun hi => ?_
  obtain ⟨a, v, hlast, ha⟩ := getLast?_entries (hne _ (List.getElem_mem (Nat.lt_of_succ_lt hi)))
  obtain ⟨w, hhead⟩ := head?_entries (hne _ (List.getElem_mem hi))
  have hapart := List.pairwise_iff_getElem.mp (pairwise_not_together h) i (i + 1) (by omega) hi
    (Nat.lt_succ_self i) _ (List.mem_of_getLast? hlast) _ (List.mem_of_head? hhead)
  rw [hlast, hhead]
  simp only [Option.mem_some_iff, forall_eq', iff_false_left hapart]
  rw [ha, ne_comm]

theorem coalesced_iff {es : List (Nat × Word)} (hes : es.Pairwise (·.1 < ·.1))
    {sections : List Section} : Coalesced es sections ↔ sections = group es := by
  constructor
  · rintro ⟨hne, rfl, htog⟩
    exact (group_expand hne ((together_iff_separated hne hes).mp htog)).symm
  · rintro rfl
    have hex := expand_group es
    refine ⟨ne_nil_of_mem_group es, hex, ?_⟩
    rw [← hex] at hes
    have htog := (together_iff_separated (ne_nil_of_mem_group es) hes).mpr (separated_group es)
    rwa [hex] at htog

/-! ## One pass -/

/-- Put an entry behind some sections: into the last one if that ends where the entry starts. Where
the last one ends is computed first, so its end must be in the address space. -/
def push (sections : List Section) (entry : Nat × Word) : Except Fault (List Section) :=
  match sections.getLast? with
  | none => .ok [⟨entry.1, [entry.2]⟩]
  | some s =>
    match s.limit with
    | .error fault => .error fault
    | .ok limit =>
      if limit = entry.1 then .ok (sections.dropLast ++ [⟨s.address, s.data ++ [entry.2]⟩])
      else .ok (sections ++ [⟨entry.1, [entry.2]⟩])

theorem expand_append (xs ys : List Section) : expand (xs ++ ys) = expand xs ++ expand ys :=
  List.flatMap_append

theorem expand_singleton (s : Section) : expand [s] = s.entries :=
  List.flatMap_singleton _ _

theorem entries_snoc (a : Nat) (ws : List Word) (w : Word) :
    entries ⟨a, ws ++ [w]⟩ = entries ⟨a, ws⟩ ++ [(a + 4 * ws.length, w)] := by
  simp [entries, List.mapIdx_append]

/-- The last section of a group ends behind the last entry. -/
theorem exists_group_snoc (es : List (Nat × Word)) (e : Nat × Word) :
    ∃ rest s, group (es ++ [e]) = rest ++ [s] ∧ s.address + s.byteSize = e.1 + 4 := by
  have hex := expand_group (es ++ [e])
  rcases List.eq_nil_or_concat (group (es ++ [e])) with hnil | ⟨rest, s, hg⟩
  · rw [hnil] at hex
    exact absurd hex.symm (by simp [expand])
  · rw [List.concat_eq_append] at hg
    have hs : s.data ≠ [] := ne_nil_of_mem_group (es ++ [e]) s (by rw [hg]; simp)
    obtain ⟨a, v, hlast, ha⟩ := getLast?_entries hs
    have he : (a, v) = e := by
      have := congrArg List.getLast? hex
      rw [hg, expand_append, expand_singleton, List.getLast?_append, hlast, List.getLast?_concat,
        Option.some_or] at this
      exact Option.some.inj this
    exact ⟨rest, s, hg, by rw [← ha, ← he]⟩

section Snoc

variable {es : List (Nat × Word)} {e x : Nat × Word} {rest : List Section} {s : Section}

/-- An entry right behind the last section is joined to it. -/
theorem group_snoc_joined (hg : group (es ++ [e]) = rest ++ [s])
    (hend : s.address + s.byteSize = e.1 + 4) (hx : e.1 + 4 = x.1) :
    group (es ++ [e] ++ [x]) = rest ++ [⟨s.address, s.data ++ [x.2]⟩] := by
  have hex := expand_group (es ++ [e])
  have hne := ne_nil_of_mem_group (es ++ [e])
  have hsep := separated_group (es ++ [e])
  rw [hg] at hex hne hsep
  -- the sections are the group of their own words
  have hwords : expand (rest ++ [⟨s.address, s.data ++ [x.2]⟩]) = es ++ [e] ++ [x] := by
    have hxa : s.address + 4 * s.data.length = x.1 := by
      rw [byteSize] at hend
      omega
    rw [← hex, expand_append, expand_append, expand_singleton, expand_singleton, entries_snoc,
      List.append_assoc, hxa]
  rw [← hwords, group_expand]
  · simp only [List.mem_append, List.mem_singleton]
    rintro t (ht | rfl)
    · exact hne t (List.mem_append_left _ ht)
    · exact List.append_ne_nil_of_right_ne_nil _ (List.cons_ne_nil _ _)
  · rw [Separated, List.isChain_append] at hsep ⊢
    refine ⟨hsep.1, List.isChain_singleton _, fun t ht u hu => ?_⟩
    cases hu
    exact hsep.2.2 t ht s rfl

/-- Any other entry starts a section of its own. -/
theorem group_snoc_apart (hg : group (es ++ [e]) = rest ++ [s])
    (hend : s.address + s.byteSize = e.1 + 4) (hx : e.1 + 4 ≠ x.1) :
    group (es ++ [e] ++ [x]) = rest ++ [s] ++ [⟨x.1, [x.2]⟩] := by
  have hex := expand_group (es ++ [e])
  have hne := ne_nil_of_mem_group (es ++ [e])
  have hsep := separated_group (es ++ [e])
  rw [hg] at hex hne hsep
  have hwords : expand (rest ++ [s] ++ [⟨x.1, [x.2]⟩]) = es ++ [e] ++ [x] := by
    rw [expand_append, hex]
    rfl
  rw [← hwords, group_expand]
  · rw [List.forall_mem_append]
    exact ⟨hne, fun t ht => List.mem_singleton.mp ht ▸ List.cons_ne_nil _ _⟩
  · rw [Separated, List.isChain_append]
    refine ⟨hsep, List.isChain_singleton _, fun t ht u hu => ?_⟩
    cases hu
    rw [List.getLast?_concat] at ht
    cases ht
    rw [hend]
    exact hx

/-- A pass that has put some entries into their group puts the next one there too. -/
theorem push_group (es : List (Nat × Word)) (e x : Nat × Word) :
    push (group (es ++ [e])) x =
      if e.1 + 4 < 0x10000000000000000 then .ok (group (es ++ [e] ++ [x]))
      else .error .addOverflow := by
  obtain ⟨rest, s, hg, hend⟩ := exists_group_snoc es e
  rw [hg, push, List.getLast?_concat, List.dropLast_concat]
  simp only [limit, checkedAdd, hend]
  by_cases hlt : e.1 + 4 < 0x10000000000000000
  · rw [if_pos hlt, if_pos (show e.1 + 4 < 1 <<< 64 from hlt)]
    by_cases hx : e.1 + 4 = x.1
    · simp only [if_pos hx, group_snoc_joined hg hend hx]
    · simp only [if_neg hx, group_snoc_apart hg hend hx]
  · rw [if_neg hlt, if_neg (show ¬ e.1 + 4 < 1 <<< 64 from hlt)]

end Snoc

/-- The rest of a pass, by induction on the entries that are still to come. -/
theorem foldlM_push_group (es : List (Nat × Word)) (e : Nat × Word) (xs : List (Nat × Word)) :
    xs.foldlM push (group (es ++ [e])) =
      if (e :: xs).dropLast.all fun x => x.1 + 4 < 0x10000000000000000 then
        .ok (group (es ++ [e] ++ xs))
      else .error .addOverflow := by
  induction xs generalizing es e with
  | nil => simp [pure, Except.pure]
  | cons x xs ih =>
    rw [List.foldlM_cons, push_group, List.dropLast_cons_cons, List.all_cons]
    by_cases hlt : e.1 + 4 < 0x10000000000000000
    · rw [if_pos hlt, decide_eq_true hlt, Bool.true_and, List.append_cons (es ++ [e]) x xs]
      exact ih (es ++ [e]) x
    · rw [if_neg hlt, decide_eq_false hlt, Bool.false_and]
      rfl

end Section

namespace WriteLog

open Section

/-- The sections of a log are what one pass over its entries makes. -/
theorem sections_eq_foldlM (log : WriteLog) : log.sections = log.entries.foldlM push [] := by
  rw [sections]
  cases log.entries with
  | nil => rfl
  | cons e es =>
    have hpush : push [] e = .ok (group ([] ++ [e])) := rfl
    rw [List.foldlM_cons, hpush]
    exact (foldlM_push_group [] e es).symm

/-! ## Both ways -/

def ofEntries (es : List (Nat × Word)) : WriteLog :=
  ⟨.ofList es⟩

theorem get?_ofEntries {es : List (Nat × Word)} (hes : es.Pairwise (·.1 < ·.1)) {a : Nat}
    {v : Word} : (ofEntries es).get? a = some v ↔ (a, v) ∈ es := by
  have hdistinct : es.Pairwise fun x y => ¬ compare x.1 y.1 = .eq :=
    hes.imp fun hxy he => Nat.ne_of_lt hxy (Std.compare_eq_iff_eq.mp he)
  have hget : ∀ {w : Word}, (a, w) ∈ es → (ofEntries es).get? a = some w := fun hw =>
    Std.ExtTreeMap.getElem?_ofList_of_mem Std.compare_self hdistinct hw
  constructor
  · intro h
    have hmem : a ∈ (Std.ExtTreeMap.ofList es : Std.ExtTreeMap Nat Word) :=
      Std.ExtTreeMap.mem_iff_isSome_getElem?.mpr (Option.isSome_of_eq_some h)
    have hkey : a ∈ es.map Prod.fst := List.contains_iff_mem.mp (Std.ExtTreeMap.mem_ofList.mp hmem)
    obtain ⟨⟨b, w⟩, hw, rfl⟩ := List.mem_map.mp hkey
    have hwv := (hget hw).symm.trans h
    rwa [← Option.some.inj hwv]
  · exact hget

theorem entries_ofEntries {es : List (Nat × Word)} (hes : es.Pairwise (·.1 < ·.1)) :
    (ofEntries es).entries = es := by
  refine eq_of_ascending (f := Prod.fst) (ofEntries es).entries_ascending hes ?_
  rintro ⟨a, v⟩
  rw [mem_entries_iff, get?_ofEntries hes]

/-- Each log below the end of the address space has the one list of sections that is coalesced from
its entries, and each list of sections with gaps between them is that of the log of its words. -/
theorem sections_coalesced :
    (∀ log : WriteLog, (∀ a, (log.get? a).isSome → a ≤ 0xFFFFFFFFFFFFFFFC) →
      ∃ sections, log.sections = .ok sections ∧ Coalesced log.entries sections ∧
        ∀ others, Coalesced log.entries others → others = sections) ∧
    ∀ sections : List Section, (∀ s ∈ sections, s.data ≠ []) →
      (expand sections).Pairwise (·.1 < ·.1) → (∀ e ∈ expand sections, e.1 ≤ 0xFFFFFFFFFFFFFFFC) →
      Separated sections →
      (ofEntries (expand sections)).entries = expand sections ∧
        (ofEntries (expand sections)).sections = .ok sections := by
  constructor
  · intro log hlog
    refine ⟨group log.entries, sections_eq_group hlog, ?_, fun others h => ?_⟩
    · exact (coalesced_iff log.entries_ascending).mpr rfl
    · exact (coalesced_iff log.entries_ascending).mp h
  · intro sections hne hasc hle hsep
    have hentries := entries_ofEntries hasc
    refine ⟨hentries, ?_⟩
    rw [sections_eq_group, hentries, group_expand hne hsep]
    intro a ha
    obtain ⟨v, hv⟩ := Option.isSome_iff_exists.mp ha
    exact hle _ ((get?_ofEntries hasc).mp hv)

def edgeSections : List Section :=
  [⟨1, [7, 8]⟩, ⟨13, [9]⟩, ⟨0xFFFFFFFFFFFFFFF8, [1, 2]⟩]

theorem edgeSections_coalesced :
    ((∀ a, ((ofEntries (expand edgeSections)).get? a).isSome → a ≤ 0xFFFFFFFFFFFFFFFC) ∧
      ∃ sections, (ofEntries (expand edgeSections)).sections = .ok sections ∧
        Coalesced (ofEntries (expand edgeSections)).entries sections ∧
        ∀ others, Coalesced (ofEntries (expand edgeSections)).entries others →
          others = sections) ∧
    ((∀ s ∈ edgeSections, s.data ≠ []) ∧ (expand edgeSections).Pairwise (·.1 < ·.1) ∧
      (∀ e ∈ expand edgeSections, e.1 ≤ 0xFFFFFFFFFFFFFFFC) ∧ Separated edgeSections ∧
      (ofEntries (expand edgeSections)).entries = expand edgeSections ∧
        (ofEntries (expand edgeSections)).sections = .ok edgeSections) := by
  have hne : ∀ s ∈ edgeSections, s.data ≠ [] := by decide
  have hasc : (expand edgeSections).Pairwise (·.1 < ·.1) := by decide
  have hle : ∀ e ∈ expand edgeSections, e.1 ≤ 0xFFFFFFFFFFFFFFFC := by decide
  have hsep : Separated edgeSections := by
    simp [Separated, edgeSections, Section.byteSize]
  have hlog : ∀ a, ((ofEntries (expand edgeSections)).get? a).isSome → a ≤ 0xFFFFFFFFFFFFFFFC := by
    intro a ha
    obtain ⟨v, hv⟩ := Option.isSome_iff_exists.mp ha
    exact hle _ ((get?_ofEntries hasc).mp hv)
  exact ⟨⟨hlog, sections_coalesced.1 _ hlog⟩, hne, hasc, hle, hsep,
    sections_coalesced.2 edgeSections hne hasc hle hsep⟩

end WriteLog
end ArrayImage
