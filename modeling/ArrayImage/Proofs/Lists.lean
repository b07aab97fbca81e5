/-!
# ArrayImage.Proofs.Lists

The last item that counts, in lists where only some items do, and the first item of a kind.
-/

namespace ArrayImage

/-! ## Last items -/

/-- Items are numbered from `n` on, so only one of them has number `n + k`. -/
theorem getLast?_filterMap_zipIdx {α β : Type} (h : α → Option β) (l : List α) (n k : Nat) :
    ((l.zipIdx n).filterMap fun x => if x.2 = n + k then h x.1 else none).getLast? =
      l[k]?.bind h := by
  induction l generalizing n k with
  | nil => rfl
  | cons x l ih =>
    rw [List.zipIdx_cons, List.filterMap_cons]
    cases k with
    | zero =>
      have hnil : ((l.zipIdx (n + 1)).filterMap fun x => if x.2 = n + 0 then h x.1 else none) =
          [] := by
        refine List.filterMap_eq_nil_iff.mpr fun y hy => if_neg ?_
        have := List.le_snd_of_mem_zipIdx hy
        omega
      rw [if_pos (show (x, n).2 = n + 0 from rfl), hnil]
      cases hx : h x <;> simp [hx]
    | succ k =>
      rw [if_neg (by simp), List.getElem?_cons_succ, ← ih (n + 1) k]
      simp only [Nat.add_assoc, Nat.add_comm 1 k]

/-- Where all items have the same word, the last one is there as soon as one is. -/
theorem getLast?_filterMap_const {α β : Type} {p : α → Prop} [DecidablePred p] {c : Prop}
    [Decidable c] {l : List α} (v : β) (h : c ↔ ∃ x ∈ l, p x) :
    (l.filterMap fun x => if p x then some v else none).getLast? =
      if c then some v else none := by
  have hall : ∀ y ∈ l.filterMap (fun x => if p x then some v else none), y = v := by
    intro y hy
    obtain ⟨x, -, hx⟩ := List.mem_filterMap.mp hy
    split at hx <;> cases hx
    rfl
  cases hl : (l.filterMap fun x => if p x then some v else none).getLast? with
  | none =>
    rw [List.getLast?_eq_none_iff, List.filterMap_eq_nil_iff] at hl
    rw [if_neg]
    rw [h]
    rintro ⟨x, hx, hp⟩
    have := hl x hx
    rw [if_pos hp] at this
    cases this
  | some y =>
    have hy := List.mem_of_getLast? hl
    obtain ⟨x, hx, hxy⟩ := List.mem_filterMap.mp hy
    rw [hall y hy, if_pos]
    rw [h]
    split at hxy
    · exact ⟨x, hx, ‹_›⟩
    · cases hxy

/-- When it is known which items have something, the last of these items decides. -/
theorem getLast?_filterMap_of_isSome {α β : Type} {g : α → Option β} {p : α → Bool} {l : List α}
    (h : ∀ x ∈ l, (g x).isSome = p x) :
    (l.filterMap g).getLast? = (l.filter p).getLast?.bind g := by
  induction l with
  | nil => rfl
  | cons x l ih =>
    have hx := h x List.mem_cons_self
    rw [List.filterMap_cons, List.filter_cons, ← hx]
    specialize ih fun y hy => h y (List.mem_cons_of_mem _ hy)
    cases hg : g x with
    | none => simpa using ih
    | some y =>
      rw [Option.isSome_some, if_pos rfl, List.getLast?_cons, List.getLast?_cons, ih]
      cases hl : (l.filter p).getLast? with
      | none => simp [hg]
      | some z =>
        have hz := List.mem_filter.mp (List.mem_of_getLast? hl)
        have hs := h z (List.mem_cons_of_mem _ hz.1)
        rw [hz.2, Option.isSome_iff_exists] at hs
        obtain ⟨v, hv⟩ := hs
        simp [hv]

theorem getLast?_filterMap_some {α β : Type} (g : α → β) (l : List α) :
    (l.filterMap fun x => some (g x)).getLast? = l.getLast?.map g := by
  rw [List.filterMap_eq_map', List.getLast?_map]

/-- An item keeps its word when no item behind it has one. -/
theorem getLast?_filterMap_append_cons {α β : Type} {g : α → Option β} {before after : List α}
    {x : α} (h : ∀ y ∈ after, g y = none) :
    ((before ++ x :: after).filterMap g).getLast? = (g x).or (before.filterMap g).getLast? := by
  rw [List.filterMap_append, List.filterMap_cons, List.filterMap_eq_nil_iff.mpr h,
    List.getLast?_append]
  cases g x <;> rfl

/-! ## Items that are left out -/

theorem flatMap_filter_of_nil {α β : Type} {p : α → Bool} {f : α → List β}
    (h : ∀ x, p x = false → f x = []) (l : List α) : (l.filter p).flatMap f = l.flatMap f := by
  induction l with
  | nil => rfl
  | cons x l ih =>
    rw [List.filter_cons, List.flatMap_cons]
    cases hp : p x with
    | true => rw [if_pos rfl, List.flatMap_cons, ih]
    | false => rw [if_neg Bool.false_ne_true, h x hp, List.nil_append, ih]

theorem flatMap_ite_singleton {α β : Type} (p : α → Bool) (f : α → β) (l : List α) :
    (l.flatMap fun x => if p x then [f x] else []) = (l.filter p).map f := by
  induction l with
  | nil => rfl
  | cons x l ih =>
    rw [List.flatMap_cons, List.filter_cons, ih]
    cases p x <;> rfl

theorem map_fst_filterMap_pair {α β : Type} (g : α → Option β) (l : List α) :
    (l.filterMap fun x => (g x).map (x, ·)).map Prod.fst = l.filter fun x => (g x).isSome := by
  induction l with
  | nil => rfl
  | cons x l ih =>
    rw [List.filterMap_cons, List.filter_cons]
    cases hg : g x with
    | none => simpa [hg] using ih
    | some y => simpa [hg] using ih

/-! ## Places -/

/-- Where no two are the same, `idxOf?` finds what is at a place. -/
theorem idxOf?_eq_some_iff_of_nodup {l : List String} (hl : l.Nodup) {a : String} {i : Nat} :
    l.idxOf? a = some i ↔ l[i]? = some a := by
  rw [List.idxOf?_eq_some_iff]
  constructor
  · rintro ⟨hi, rfl, -⟩
    exact List.getElem?_eq_getElem hi
  · intro h
    obtain ⟨hi, rfl⟩ := List.getElem?_eq_some_iff.mp h
    refine ⟨hi, rfl, fun j hj he => ?_⟩
    have := (List.getElem_inj hl).mp he
    omega

/-! ## First items -/

/-- When nothing without a value is found, everything has one. -/
theorem isSome_of_find?_isNone {α β : Type} {f : α → Option β} {l : List α}
    (h : l.find? (fun x => (f x).isNone) = none) : ∀ x ∈ l, (f x).isSome := by
  simpa [Option.isSome_iff_ne_none] using h

/-- A list has only one first item of a kind. -/
theorem first_unique {α : Type} {P : α → Prop} {before before' after after' : List α} {x x' : α}
    (h : before ++ x :: after = before' ++ x' :: after') (hbefore : ∀ y ∈ before, ¬ P y) (hx : P x)
    (hbefore' : ∀ y ∈ before', ¬ P y) (hx' : P x') : before = before' ∧ x = x' := by
  induction before generalizing before' with
  | nil =>
    cases before' with
    | nil =>
      cases h
      exact ⟨rfl, rfl⟩
    | cons y before' =>
      cases h
      exact absurd hx (hbefore' _ List.mem_cons_self)
  | cons y before ih =>
    cases before' with
    | nil =>
      cases h
      exact absurd hx' (hbefore _ List.mem_cons_self)
    | cons y' before' =>
      injection h with hy h
      obtain ⟨rfl, rfl⟩ := ih h (fun z hz => hbefore z (List.mem_cons_of_mem _ hz))
        fun z hz => hbefore' z (List.mem_cons_of_mem _ hz)
      exact ⟨by rw [hy], rfl⟩

end ArrayImage
