import ArrayImage.Options
import Mathlib.Data.List.Infix
import Mathlib.Data.List.Nodup
import Mathlib.Data.Option.Basic

/-!
# ArrayImage.Proofs.Arguments

What the arguments of a run say.

An option that has no letter is given exactly when its name stands among the arguments, with its
value in the same argument or in the next one (`Flag.IsSpelled`, `mem_givenOptions_iff`): no value
looks like a name, and letters never stand for such an option. So it can be seen from the arguments
alone whether a run is strict (`Options.strict_iff`) and which directory it takes its programs from
(`Options.programDir?_eq_some_iff`).
-/

namespace ArrayImage

namespace Flag

def spelling (f : Flag) : String :=
  "--" ++ f.name

/-- The name of the option stands in the arguments, with this value if it has one. -/
def IsSpelled (f : Flag) (arguments : List String) (value : String) : Prop :=
  if f.hasValue then f.spelling ++ "=" ++ value ∈ arguments ∨ [f.spelling, value] <:+: arguments
  else f.spelling ∈ arguments ∧ value = ""

theorem toList_spelling (f : Flag) : f.spelling.toList = '-' :: '-' :: f.name.toList := by
  rw [spelling, String.toList_append]
  rfl

theorem name_inj {f g : Flag} : f.name.toList = g.name.toList ↔ f = g := by
  constructor
  · cases f <;> cases g <;> decide +kernel
  · rintro rfl
    rfl

theorem equals_notMem_name (f : Flag) : '=' ∉ f.name.toList := by
  cases f <;> decide +kernel

theorem takeWhile_name (f : Flag) (cs : List Char) :
    (f.name.toList ++ '=' :: cs).takeWhile (· != '=') = f.name.toList := by
  have hall : ∀ c ∈ f.name.toList, (c != '=') = true := fun c hc =>
    bne_iff_ne.mpr fun he => f.equals_notMem_name (he ▸ hc)
  rw [List.takeWhile_append_of_pos hall, List.takeWhile_cons]
  simp

theorem name_append_inj {f g : Flag} {cs ds : List Char} :
    f.name.toList ++ '=' :: cs = g.name.toList ++ '=' :: ds ↔ f = g ∧ cs = ds := by
  constructor
  · intro h
    have hname := congrArg (List.takeWhile (· != '=')) h
    rw [takeWhile_name, takeWhile_name, name_inj] at hname
    subst hname
    exact ⟨rfl, List.tail_eq_of_cons_eq (List.append_cancel_left h)⟩
  · rintro ⟨rfl, rfl⟩
    rfl

theorem name_ne_append (f g : Flag) (cs : List Char) :
    f.name.toList ≠ g.name.toList ++ '=' :: cs := fun h =>
  f.equals_notMem_name (h ▸ List.mem_append_right _ List.mem_cons_self)

end Flag

/-! ## One argument -/

/-- What a name can be: of an option whose value comes next, with a value, or of an option without
one. -/
theorem named?_eq_some {cs : List Char} {x : Argument} (h : named? cs = some x) : ∃ g : Flag,
    (g.hasValue = true ∧ cs = g.name.toList ∧ x = ⟨[], some g⟩) ∨
    (g.hasValue = true ∧ ∃ value, cs = g.name.toList ++ '=' :: value ∧
      x = ⟨[(g, String.ofList value)], none⟩) ∨
    (g.hasValue = false ∧ cs = g.name.toList ∧ x = ⟨[(g, "")], none⟩) := by
  unfold named? at h
  obtain ⟨g, hg, h⟩ := Option.bind_eq_some_iff.mp h
  have hname : g.name.toList = cs.takeWhile (· != '=') :=
    eq_of_beq (List.find?_some (p := fun f : Flag => f.name.toList == cs.takeWhile (· != '=')) hg)
  have hsplit := List.takeWhile_append_dropWhile (p := (· != '=')) (l := cs)
  rw [← hname] at hsplit
  refine ⟨g, ?_⟩
  cases hd : cs.dropWhile (· != '=') with
  | nil =>
    rw [hd, List.append_nil] at hsplit
    cases hv : g.hasValue with
    | true =>
      rw [hv, hd] at h
      cases h
      exact .inl ⟨rfl, hsplit.symm, rfl⟩
    | false =>
      rw [hv, hd] at h
      cases h
      exact .inr (.inr ⟨rfl, hsplit.symm, rfl⟩)
  | cons c value =>
    cases hv : g.hasValue with
    | true =>
      rw [hv, hd] at h
      cases h
      have hc : (c != '=') = false := by
        have hhead := List.head?_dropWhile_not (· != '=') cs
        rw [hd] at hhead
        simpa using hhead
      rw [hd, bne_eq_false_iff_eq.mp hc] at hsplit
      exact .inr (.inl ⟨rfl, value, hsplit.symm, rfl⟩)
    | false =>
      rw [hv, hd] at h
      cases h

/-- A name says something about the option that it is the name of, and about no other one. -/
theorem named?_given {cs : List Char} {x : Argument} (h : named? cs = some x) (f : Flag) :
    (∀ value : String, (f, value) ∈ x.given ↔
      if f.hasValue then cs = f.name.toList ++ '=' :: value.toList
      else cs = f.name.toList ∧ value = "") ∧
    (x.waiting = some f ↔ f.hasValue = true ∧ cs = f.name.toList) := by
  obtain ⟨g, ⟨hv, rfl, rfl⟩ | ⟨hv, value, rfl, rfl⟩ | ⟨hv, rfl, rfl⟩⟩ := named?_eq_some h
  · simp only [Flag.name_inj, Flag.name_ne_append, Option.some.injEq]
    constructor
    · intro value
      by_cases hgf : g = f
      · subst hgf
        simp [hv]
      · simp [hgf]
    · constructor
      · rintro rfl
        exact ⟨hv, rfl⟩
      · exact fun ⟨_, he⟩ => he
  · have hne : ∀ cs, g.name.toList ++ '=' :: cs ≠ f.name.toList := fun cs he =>
      f.name_ne_append g cs he.symm
    simp only [Flag.name_append_inj, hne]
    constructor
    · intro value'
      by_cases hgf : g = f
      · subst hgf
        simp only [List.mem_singleton, Prod.mk.injEq, true_and, hv, if_pos]
        rw [← String.toList_inj, String.toList_ofList, eq_comm]
      · simp [hgf, Ne.symm hgf]
    · simp
  · simp only [Flag.name_inj, Flag.name_ne_append]
    constructor
    · intro value
      by_cases hgf : g = f
      · subst hgf
        simp [hv]
      · simp [hgf, Ne.symm hgf]
    · constructor
      · simp
      · rintro ⟨hv', rfl⟩
        rw [hv] at hv'
        cases hv'

/-- Letters only stand for options that have one. -/
theorem letters?_eq_some {cs : List Char} {x : Argument} (h : letters? cs = some x) :
    (∀ p ∈ x.given, p.1.letter? ≠ none) ∧ ∀ g, x.waiting = some g → g.letter? ≠ none := by
  induction cs generalizing x with
  | nil =>
    cases h
    exact ⟨by simp, by simp⟩
  | cons c rest ih =>
    unfold letters? at h
    obtain ⟨g, hg, h⟩ := Option.bind_eq_some_iff.mp h
    have hletter : g.letter? ≠ none := by
      have := eq_of_beq (List.find?_some (p := fun f : Flag => f.letter? == some c) hg)
      rw [this]
      exact Option.some_ne_none c
    split at h
    · split at h <;> cases h <;> simp [hletter]
    · obtain ⟨others, ho, h⟩ := Option.bind_eq_some_iff.mp h
      cases h
      exact ⟨List.forall_mem_cons.mpr ⟨hletter, (ih ho).1⟩, (ih ho).2⟩

/-- What one argument says about an option without a letter, it says by the name. -/
theorem Argument.ofText?_eq_some {text : String} {x : Argument} (h : ofText? text = some x)
    {f : Flag} (hf : f.letter? = none) :
    (∀ value, (f, value) ∈ x.given ↔
      if f.hasValue then text = f.spelling ++ "=" ++ value else text = f.spelling ∧ value = "") ∧
    (x.waiting = some f ↔ f.hasValue = true ∧ text = f.spelling) := by
  have hspell : text = f.spelling ↔ text.toList = '-' :: '-' :: f.name.toList := by
    rw [← String.toList_inj, f.toList_spelling]
  have hvalue : ∀ value : String, text = f.spelling ++ "=" ++ value ↔
      text.toList = '-' :: '-' :: (f.name.toList ++ '=' :: value.toList) := by
    intro value
    rw [← String.toList_inj, String.toList_append, String.toList_append, f.toList_spelling]
    simp
  simp only [hspell, hvalue]
  unfold ofText? at h
  split at h
  · rename_i cs hcs
    rw [hcs]
    simp only [List.cons.injEq, true_and]
    exact named?_given h f
  · rename_i c rest hnot hcs
    have hdash : c ≠ '-' := by
      rintro rfl
      exact hnot rfl
    obtain ⟨hgiven, hwaiting⟩ := letters?_eq_some h
    rw [hcs]
    constructor
    · intro value
      have hmem : (f, value) ∉ x.given := fun hm => hgiven _ hm hf
      simp [hmem, hdash]
    · constructor
      · exact fun hw => absurd hf (hwaiting f hw)
      · rintro ⟨-, he⟩
        exact absurd (List.cons.inj (List.cons.inj he).2).1 hdash
  · cases h

/-! ## All arguments -/

theorem ne_spelling_append_of_isValue {value : String} (hv : isValue value = true) (f : Flag)
    (s : String) : f.spelling ++ s ≠ value := by
  rintro rfl
  have hlist : (f.spelling ++ s).toList = '-' :: '-' :: (f.name.toList ++ s.toList) := by
    rw [String.toList_append, f.toList_spelling]
    rfl
  unfold isValue at hv
  rw [hlist] at hv
  simp only [List.head?_cons, bne_self_eq_false, Bool.or_false, beq_iff_eq] at hv
  have hdash := congrArg String.toList hv
  rw [hlist] at hdash
  cases hdash

theorem ne_spelling_of_isValue {value : String} (hv : isValue value = true) (f : Flag) :
    f.spelling ≠ value := by
  have h := ne_spelling_append_of_isValue hv f ""
  rwa [String.append_empty] at h

namespace Flag

variable {f : Flag} {text value : String} {rest : List String}

theorem pair_infix_cons_iff {a b : String} : [a, b] <:+: text :: rest ↔
    (a = text ∧ rest.head? = some b) ∨ [a, b] <:+: rest := by
  rw [List.infix_cons_iff, List.cons_prefix_cons]
  cases rest with
  | nil => simp
  | cons c rest => simp [List.cons_prefix_cons, eq_comm]

theorem spelling_ne_append (f g : Flag) (s : String) : f.spelling ≠ g.spelling ++ "=" ++ s := by
  intro h
  have hlist := congrArg String.toList h
  rw [String.toList_append, String.toList_append, f.toList_spelling, g.toList_spelling] at hlist
  simp only [List.cons_append, List.cons.injEq, true_and, List.append_assoc] at hlist
  exact f.name_ne_append g s.toList hlist

theorem not_isSpelled_nil (f : Flag) : ¬ f.IsSpelled [] value := by
  unfold IsSpelled
  split <;> simp

/-- The name of an option is more than its dashes. -/
theorem not_isSpelled_dashes (f : Flag) : ¬ f.IsSpelled ["--"] value := by
  have hdashes : ∀ s, f.spelling ++ s ≠ "--" := by
    intro s he
    have hlist := congrArg String.toList he
    rw [String.toList_append, f.toList_spelling] at hlist
    cases f <;> cases hlist
  have hdashes' : f.spelling ≠ "--" := by
    have h := hdashes ""
    rwa [String.append_empty] at h
  unfold IsSpelled
  split
  · simp [pair_infix_cons_iff, String.append_assoc, hdashes]
  · simp [hdashes']

/-- An argument behind which no value comes. -/
theorem isSpelled_cons (h : ¬ (f.hasValue = true ∧ text = f.spelling)) :
    f.IsSpelled (text :: rest) value ↔
      (if f.hasValue then text = f.spelling ++ "=" ++ value else text = f.spelling ∧ value = "") ∨
        f.IsSpelled rest value := by
  unfold IsSpelled
  cases hv : f.hasValue with
  | true =>
    have hne : f.spelling ≠ text := fun he => h ⟨hv, he.symm⟩
    simp [pair_infix_cons_iff, hne, or_assoc, eq_comm]
  | false =>
    simp only [Bool.false_eq_true, if_false, List.mem_cons]
    constructor
    · rintro ⟨he | hm, hval⟩
      · exact .inl ⟨he.symm, hval⟩
      · exact .inr ⟨hm, hval⟩
    · rintro (⟨he, hval⟩ | ⟨hm, hval⟩)
      · exact ⟨.inl he.symm, hval⟩
      · exact ⟨.inr hm, hval⟩

/-- A value is no name itself. -/
theorem isSpelled_value {v : String} (hv : isValue v = true) :
    f.IsSpelled (v :: rest) value ↔ f.IsSpelled rest value := by
  have hne := ne_spelling_of_isValue hv f
  have hne' := ne_spelling_append_of_isValue hv f
  unfold IsSpelled
  simp [pair_infix_cons_iff, hne, String.append_assoc, hne']

/-- An option whose value comes next. -/
theorem isSpelled_pair (hf : f.hasValue = true) {v : String} (hv : isValue v = true) :
    f.IsSpelled (f.spelling :: v :: rest) value ↔ value = v ∨ f.IsSpelled rest value := by
  have hne := f.spelling_ne_append f value
  have hne' := ne_spelling_of_isValue hv f
  have hskip : f.IsSpelled (v :: rest) value ↔ f.IsSpelled rest value := isSpelled_value hv
  rw [← hskip]
  unfold IsSpelled
  simp only [hf, if_true, pair_infix_cons_iff, List.mem_cons, hne.symm, hne', false_or, false_and,
    true_and, List.head?_cons, Option.some.injEq]
  rw [or_left_comm, eq_comm]

end Flag

/-- An option without a letter is given with the values that stand in the arguments. -/
theorem mem_givenOptions_iff {f : Flag} (hf : f.letter? = none) {arguments : List String}
    {given : List (Flag × String)} (h : givenOptions? arguments = some given) (value : String) :
    (f, value) ∈ given ↔ f.IsSpelled arguments value := by
  -- As `givenOptions?` recurs: an argument that waits for a value takes the next one with it, and
  -- that one is no name, so nothing is spelled across both.
  induction arguments using givenOptions?.induct generalizing given with
  | case1 =>
    cases h
    exact iff_of_false List.not_mem_nil f.not_isSpelled_nil
  | case2 =>
    cases h
    exact iff_of_false List.not_mem_nil f.not_isSpelled_dashes
  | case3 text first rest hx hne ih =>
    rw [givenOptions?.eq_3 _ _ _ hx hne] at h
    obtain ⟨others, ho, rfl⟩ := Option.map_eq_some_iff.mp h
    obtain ⟨hgiven, hwaiting⟩ := Argument.ofText?_eq_some hx hf
    have hnot : ¬ (f.hasValue = true ∧ text = f.spelling) := fun hw => by
      cases hwaiting.mpr hw
    rw [List.mem_append, hgiven, ih ho, Flag.isSpelled_cons hnot]
  | case4 text first flag v rest hx hv hne ih =>
    rw [givenOptions?.eq_4 _ _ _ _ _ hx hne, if_pos hv] at h
    obtain ⟨others, ho, rfl⟩ := Option.map_eq_some_iff.mp h
    obtain ⟨hgiven, hwaiting⟩ := Argument.ofText?_eq_some hx hf
    rw [List.mem_append, hgiven, List.mem_cons, ih ho]
    by_cases hflag : flag = f
    · subst hflag
      obtain ⟨hval, rfl⟩ := hwaiting.mp rfl
      rw [Flag.isSpelled_pair hval hv]
      simp [hval, Flag.spelling_ne_append]
    · have hnot : ¬ (f.hasValue = true ∧ text = f.spelling) := fun hw =>
        hflag (Option.some.inj (hwaiting.mpr hw))
      rw [Flag.isSpelled_cons hnot, Flag.isSpelled_value hv]
      simp [Ne.symm hflag]
  | case5 text first flag v rest hx hv hne =>
    rw [givenOptions?.eq_4 _ _ _ _ _ hx hne, if_neg hv] at h
    cases h
  | case6 text rest hne hnone hnone' =>
    rw [givenOptions?.eq_5 _ _ hnone hnone' hne] at h
    cases h

/-- An option without a letter and a value is given when its name stands in the arguments. -/
theorem mem_flags_iff {f : Flag} (hf : f.letter? = none) (hv : f.hasValue = false)
    {arguments : List String} {given : List (Flag × String)}
    (h : givenOptions? arguments = some given) :
    f ∈ given.map Prod.fst ↔ f.spelling ∈ arguments := by
  have hspelled : ∀ value, f.IsSpelled arguments value ↔ f.spelling ∈ arguments ∧ value = "" := by
    intro value
    rw [Flag.IsSpelled, hv, if_neg Bool.false_ne_true]
  rw [List.mem_map]
  constructor
  · rintro ⟨⟨g, value⟩, hm, rfl⟩
    exact ((hspelled value).mp ((mem_givenOptions_iff hf h value).mp hm)).1
  · intro hm
    exact ⟨_, (mem_givenOptions_iff hf h "").mpr ((hspelled "").mpr ⟨hm, rfl⟩), rfl⟩

/-! ## Options -/

theorem length_eraseDups_le {α : Type} [DecidableEq α] (l : List α) :
    l.eraseDups.length ≤ l.length := by
  induction hn : l.length using Nat.strong_induction_on generalizing l with
  | _ n ih =>
    cases l with
    | nil => exact Nat.zero_le n
    | cons a l =>
      subst hn
      have hle := List.length_filter_le (fun b => !b == a) l
      rw [List.eraseDups_cons, List.length_cons, List.length_cons]
      have := ih _ (Nat.lt_succ_of_le hle) _ rfl
      omega

/-- A list that loses nothing with its repetitions has none. -/
theorem nodup_of_length_eraseDups {α : Type} [DecidableEq α] {l : List α}
    (h : l.eraseDups.length = l.length) : l.Nodup := by
  induction l with
  | nil => exact List.nodup_nil
  | cons a l ih =>
    have hle := List.length_filter_le (fun b => !b == a) l
    have hdups := length_eraseDups_le (l.filter fun b => !b == a)
    rw [List.eraseDups_cons, List.length_cons, List.length_cons] at h
    have hlen : (l.filter fun b => !b == a).length = l.length := by omega
    have hall := List.length_filter_eq_length_iff.mp hlen
    rw [List.filter_eq_self.mpr hall] at h
    refine List.nodup_cons.mpr ⟨fun hm => ?_, ih (by omega)⟩
    simpa using hall a hm

theorem lookup_eq_some_iff {given : List (Flag × String)} (h : (given.map Prod.fst).Nodup)
    {f : Flag} {value : String} : given.lookup f = some value ↔ (f, value) ∈ given := by
  induction given with
  | nil => simp
  | cons p given ih =>
    obtain ⟨g, v⟩ := p
    rw [List.map_cons, List.nodup_cons] at h
    rw [List.lookup_cons, List.mem_cons, ← ih h.2]
    by_cases hfg : f = g
    · subst hfg
      have hnone : given.lookup f ≠ some value := fun hl =>
        h.1 (List.mem_map.mpr ⟨_, (ih h.2).mp hl, rfl⟩)
      simp [hnone, eq_comm]
    · rw [beq_eq_false_iff_ne.mpr hfg]
      simp [hfg]

namespace Options

/-- These given options are what a run is asked for, as far as strictness and programs go. -/
structure From (o : Options) (given : List (Flag × String)) : Prop where
  nodup : (given.map Prod.fst).Nodup
  value_ne : ∀ p ∈ given, p.1.hasValue = true → p.2 ≠ ""
  programDir : given.lookup .programDir = o.programDir?
  strict : o.strict = true ↔ .strict ∈ given.map Prod.fst

theorem from_of_ofArguments? {arguments : List String} {o : Options}
    (h : ofArguments? arguments = some o) :
    ∃ given, givenOptions? arguments = some given ∧ o.From given := by
  unfold ofArguments? at h
  obtain ⟨given, hg, h⟩ := Option.bind_eq_some_iff.mp h
  obtain ⟨u, hdups, h⟩ := Option.bind_eq_some_iff.mp h
  obtain ⟨v, hvalues, h⟩ := Option.bind_eq_some_iff.mp h
  obtain ⟨design, hd, h⟩ := Option.bind_eq_some_iff.mp h
  obtain ⟨output, ho, h⟩ := Option.bind_eq_some_iff.mp h
  rw [Option.guard_eq_some'] at hdups hvalues
  cases h
  refine ⟨given, hg, nodup_of_length_eraseDups hdups, fun p hp hv he => ?_, rfl, ?_⟩
  · have := List.all_eq_true.mp hvalues p hp
    simp [hv, he] at this
  · exact List.contains_iff_mem

variable {arguments : List String} {o : Options} (h : ofArguments? arguments = some o)

include h

/-- A run is strict when it is asked to be. -/
theorem strict_iff : o.strict = true ↔ "--strict" ∈ arguments := by
  obtain ⟨given, hg, ho⟩ := from_of_ofArguments? h
  rw [ho.strict]
  exact mem_flags_iff rfl rfl hg

/-- A run takes its programs from the directory that it is told. -/
theorem programDir?_eq_some_iff {dir : String} : o.programDir? = some dir ↔
    "--elf-dir=" ++ dir ∈ arguments ∨ ["--elf-dir", dir] <:+: arguments := by
  obtain ⟨given, hg, ho⟩ := from_of_ofArguments? h
  rw [← ho.programDir, lookup_eq_some_iff ho.nodup, mem_givenOptions_iff rfl hg]
  rfl

theorem programDir?_ne_empty : o.programDir? ≠ some "" := by
  obtain ⟨given, hg, ho⟩ := from_of_ofArguments? h
  rw [← ho.programDir]
  intro hl
  exact ho.value_ne _ ((lookup_eq_some_iff ho.nodup).mp hl) rfl rfl

end Options

end ArrayImage
