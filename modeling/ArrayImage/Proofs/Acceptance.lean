import ArrayImage.Proofs.Rules

/-!
# ArrayImage.Proofs.Acceptance

The validator finds what is broken: everything, nothing else, and each of it once.

`Enumerates breaks es` says that the issues `es` are those of `breaks`, one for each place where
something breaks, in the order of the places. Each function of the validator enumerates the ways to
break the rules that it is about, put together from parts one after the other (`Enumerates.next`)
and from lists of items (`enumerates_withEarlier`) up to the whole design (`issues_exact`).
-/

namespace ArrayImage

open Validation

/-- The issues are those of all places where something breaks, in the order of the places. -/
def Enumerates (breaks : List Nat → Issue → Prop) (es : List Issue) : Prop :=
  ∃ broken : List (List Nat × Issue), broken.map Prod.snd = es ∧ broken.Pairwise (·.1 < ·.1) ∧
    ∀ k e, (k, e) ∈ broken ↔ breaks k e

namespace Enumerates

variable {breaks breaks' : List Nat → Issue → Prop} {es es' : List Issue}

theorem congr (h : Enumerates breaks es) (hb : ∀ k e, breaks k e ↔ breaks' k e) :
    Enumerates breaks' es := by
  obtain ⟨broken, hes, hlt, hmem⟩ := h
  exact ⟨broken, hes, hlt, fun k e => (hmem k e).trans (hb k e)⟩

/-- Nothing is broken where there are no issues. -/
theorem eq_nil_iff (h : Enumerates breaks es) : es = [] ↔ ∀ k e, ¬ breaks k e := by
  obtain ⟨broken, rfl, -, hmem⟩ := h
  rw [List.map_eq_nil_iff, List.eq_nil_iff_forall_not_mem]
  constructor
  · intro h k e hb
    exact h _ ((hmem k e).mpr hb)
  · rintro h ⟨k, e⟩ hke
    exact h k e ((hmem k e).mp hke)

theorem nil (h : ∀ k e, ¬ breaks k e) : Enumerates breaks [] := by
  refine ⟨[], rfl, List.Pairwise.nil, fun k e => ?_⟩
  simp [h k e]

theorem append (h : Enumerates breaks es) (h' : Enumerates breaks' es')
    (hlt : ∀ k e k' e', breaks k e → breaks' k' e' → k < k') :
    Enumerates (fun k e => breaks k e ∨ breaks' k e) (es ++ es') := by
  obtain ⟨broken, rfl, hasc, hmem⟩ := h
  obtain ⟨broken', rfl, hasc', hmem'⟩ := h'
  refine ⟨broken ++ broken', List.map_append, ?_, fun k e => ?_⟩
  · refine List.pairwise_append.mpr ⟨hasc, hasc', ?_⟩
    rintro ⟨k, e⟩ hke ⟨k', e'⟩ hke'
    exact hlt k e k' e' ((hmem k e).mp hke) ((hmem' k' e').mp hke')
  · rw [List.mem_append, hmem, hmem']

end Enumerates

/-! ## Places -/

def Fails (rule : Prop) (issue : Issue) (k : List Nat) (e : Issue) : Prop :=
  k = [] ∧ ¬ rule ∧ e = issue

def Under (n : Nat) (breaks : List Nat → Issue → Prop) (k : List Nat) (e : Issue) : Prop :=
  ∃ k', k = n :: k' ∧ breaks k' e

theorem enumerates_require {rule : Bool} {p : Prop} (h : rule = true ↔ p) (issue : Issue) :
    Enumerates (Fails p issue) (require rule issue) := by
  cases rule with
  | true =>
    refine Enumerates.nil ?_
    rintro k e ⟨-, hp, -⟩
    exact hp (h.mp rfl)
  | false =>
    have hp : ¬ p := fun hp => Bool.false_ne_true (h.mpr hp)
    refine ⟨[([], issue)], rfl, List.pairwise_singleton _ _, fun k e => ?_⟩
    simp [Fails, hp]

theorem Enumerates.under {breaks : List Nat → Issue → Prop} {es : List Issue}
    (h : Enumerates breaks es) (n : Nat) : Enumerates (Under n breaks) es := by
  obtain ⟨broken, rfl, hasc, hmem⟩ := h
  refine ⟨broken.map fun x => (n :: x.1, x.2), ?_, ?_, fun k e => ?_⟩
  · rw [List.map_map]
    rfl
  · rw [List.pairwise_map]
    refine hasc.imp fun {x y} hxy => ?_
    exact List.cons_lt_cons_iff.mpr (.inr ⟨rfl, hxy⟩)
  · simp only [List.mem_map, Under]
    constructor
    · rintro ⟨⟨k', e'⟩, hke, hx⟩
      cases hx
      exact ⟨k', rfl, (hmem k' e').mp hke⟩
    · rintro ⟨k', rfl, hb⟩
      exact ⟨(k', e), (hmem k' e).mpr hb, rfl⟩

/-! ## Items -/

def Items {α : Type} (l : List α) (breaks : Nat → α → List Nat → Issue → Prop)
    (k : List Nat) (e : Issue) : Prop :=
  ∃ i x, l[i]? = some x ∧ Under i (breaks i x) k e

section Items

variable {α β : Type} {l : List α} {breaks : Nat → α → List Nat → Issue → Prop}

/-- By induction on the items: those before are known by their keys, and give the first number. -/
theorem enumerates_withEarlier_from {key : α → β} {f : List β → α → List Issue} {earlier : List β}
    {n : Nat} (h : ∀ i x, l[i]? = some x →
      Enumerates (breaks i x) (f (((l.take i).map key).reverse ++ earlier) x)) :
    Enumerates (fun k e => ∃ i x, l[i]? = some x ∧ Under (n + i) (breaks i x) k e)
      (withEarlier key f earlier l) := by
  induction l generalizing earlier n breaks with
  | nil =>
    refine Enumerates.nil ?_
    rintro k e ⟨i, x, hx, -⟩
    cases hx
  | cons x l ih =>
    have hfirst : Enumerates (breaks 0 x) (f earlier x) := h 0 x rfl
    have hrest : Enumerates
        (fun k e => ∃ i y, l[i]? = some y ∧ Under (n + 1 + i) (breaks (i + 1) y) k e)
        (withEarlier key f (key x :: earlier) l) := by
      refine ih fun i y hy => ?_
      have hi := h (i + 1) y hy
      rwa [List.take_succ_cons, List.map_cons, List.reverse_cons, List.append_assoc] at hi
    refine ((hfirst.under n).append hrest ?_).congr fun k e => ?_
    · rintro k e k' e' ⟨m, rfl, -⟩ ⟨i, y, -, m', rfl, -⟩
      exact List.cons_lt_cons_iff.mpr (.inl (by omega))
    · constructor
      · rintro (hb | ⟨i, y, hy, k', rfl, hb⟩)
        · exact ⟨0, x, rfl, hb⟩
        · exact ⟨i + 1, y, hy, k', by rw [Nat.add_right_comm, Nat.add_assoc], hb⟩
      · rintro ⟨i, y, hy, k', rfl, hb⟩
        cases i with
        | zero =>
          cases hy
          exact .inl ⟨k', rfl, hb⟩
        | succ i => exact .inr ⟨i, y, hy, k', by rw [Nat.add_right_comm, Nat.add_assoc], hb⟩

theorem enumerates_withEarlier {key : α → β} {f : List β → α → List Issue}
    (h : ∀ i x, l[i]? = some x → Enumerates (breaks i x) (f ((l.take i).map key).reverse x)) :
    Enumerates (Items l breaks) (withEarlier key f [] l) := by
  have hfrom : ∀ i x, l[i]? = some x →
      Enumerates (breaks i x) (f (((l.take i).map key).reverse ++ []) x) := by
    intro i x hx
    rw [List.append_nil]
    exact h i x hx
  refine (enumerates_withEarlier_from (n := 0) hfrom).congr fun k e => ?_
  simp only [Items, Nat.zero_add]

theorem enumerates_flatMap {f : α → List Issue}
    (h : ∀ i x, l[i]? = some x → Enumerates (breaks i x) (f x)) :
    Enumerates (Items l breaks) (l.flatMap f) := by
  have heq : ∀ earlier : List α, withEarlier id (fun _ => f) earlier l = l.flatMap f := by
    clear h
    induction l with
    | nil => exact fun _ => rfl
    | cons x l ih =>
      intro earlier
      rw [withEarlier, ih, List.flatMap_cons]
  rw [← heq []]
  exact enumerates_withEarlier h

theorem not_contains_iff [DecidableEq β] {key : α → β} {i : Nat} {x : α} :
    (!((l.take i).map key).reverse.contains (key x)) = true ↔ ¬ Repeats key l i x := by
  rw [Bool.not_eq_true', ← Bool.not_eq_true, not_congr]
  rw [List.contains_iff_mem, List.mem_reverse, List.mem_map, Repeats]
  constructor
  · rintro ⟨y, hy, hkey⟩
    obtain ⟨j, hj⟩ := List.mem_iff_getElem?.mp hy
    rw [List.getElem?_take] at hj
    split at hj
    · exact ⟨j, ‹_›, y, hj, hkey⟩
    · cases hj
  · rintro ⟨j, hj, y, hy, hkey⟩
    refine ⟨y, List.mem_iff_getElem?.mpr ⟨j, ?_⟩, hkey⟩
    rw [List.getElem?_take, if_pos hj, hy]

end Items

/-! ## Parts -/

/-- The ways to break in the `n`-th part. -/
def nthBreaks (parts : List (List Nat → Issue → Prop)) (n : Nat) : List Nat → Issue → Prop :=
  parts.getD n fun _ _ => False

def Numbered (parts : List (List Nat → Issue → Prop)) (k : List Nat) (e : Issue) : Prop :=
  ∃ n, Under n (nthBreaks parts n) k e

section Numbered

variable {breaks : List Nat → Issue → Prop} {parts : List (List Nat → Issue → Prop)} {n : Nat}
  {k : List Nat} {e : Issue}

theorem lt_length_of_nthBreaks (h : nthBreaks parts n k e) : n < parts.length := by
  refine Nat.lt_of_not_le fun hle => ?_
  rw [nthBreaks, List.getD_eq_getElem?_getD, List.getElem?_eq_none hle] at h
  exact h

theorem nthBreaks_append :
    nthBreaks (parts ++ [breaks]) n k e ↔ nthBreaks parts n k e ∨ n = parts.length ∧ breaks k e := by
  rcases Nat.lt_trichotomy n parts.length with hn | rfl | hn
  · rw [nthBreaks, nthBreaks, List.getD_eq_getElem?_getD, List.getElem?_append_left hn,
      List.getD_eq_getElem?_getD]
    simp [Nat.ne_of_lt hn]
  · rw [nthBreaks, List.getD_eq_getElem?_getD, List.getElem?_concat_length, Option.getD_some]
    constructor
    · intro h
      exact .inr ⟨rfl, h⟩
    · rintro (h | ⟨-, h⟩)
      · exact absurd (lt_length_of_nthBreaks h) (Nat.lt_irrefl _)
      · exact h
  · constructor
    · intro h
      have hlt := lt_length_of_nthBreaks h
      rw [List.length_append, List.length_singleton] at hlt
      omega
    · rintro (h | ⟨rfl, -⟩)
      · have hlt := lt_length_of_nthBreaks h
        omega
      · omega

end Numbered

namespace Enumerates

variable {breaks : List Nat → Issue → Prop} {parts : List (List Nat → Issue → Prop)}
  {es es' : List Issue}

theorem first (h : Enumerates breaks es) : Enumerates (Numbered [breaks]) es := by
  refine (h.under 0).congr fun k e => ?_
  constructor
  · intro hb
    exact ⟨0, hb⟩
  · rintro ⟨n, k, rfl, hb⟩
    cases n with
    | zero => exact ⟨k, rfl, hb⟩
    | succ n => cases hb

/-- The number of a part is how many there are before it. -/
theorem next (h : Enumerates (Numbered parts) es) (h' : Enumerates breaks es') :
    Enumerates (Numbered (parts ++ [breaks])) (es ++ es') := by
  refine (h.append (h'.under parts.length) ?_).congr fun k e => ?_
  · rintro k e k' e' ⟨n, l, rfl, hb⟩ ⟨l', rfl, -⟩
    exact List.cons_lt_cons_iff.mpr (.inl (lt_length_of_nthBreaks hb))
  constructor
  · rintro (⟨n, l, rfl, hb⟩ | ⟨l, rfl, hb⟩)
    · exact ⟨n, l, rfl, nthBreaks_append.mpr (.inl hb)⟩
    · exact ⟨parts.length, l, rfl, nthBreaks_append.mpr (.inr ⟨rfl, hb⟩)⟩
  · rintro ⟨n, l, rfl, hb⟩
    rcases nthBreaks_append.mp hb with hold | ⟨rfl, hnew⟩
    · exact .inl ⟨n, l, rfl, hold⟩
    · exact .inr ⟨l, rfl, hnew⟩

end Enumerates

/-! ## Rules -/

theorem isSome_find?_name {α : Type} {l : List α} {name : α → String} {s : String} :
    (l.find? fun x => name x == s).isSome = true ↔ ∃ x ∈ l, name x = s := by
  rw [List.find?_isSome]
  simp only [beq_iff_eq]

theorem any_place_iff {d : Device} {column row : UInt8} :
    (d.tiles.any fun t => place t == ⟨column, row⟩) = true ↔ Declared d column row := by
  rw [List.any_eq_true]
  simp only [place, beq_iff_eq, Coordinates.mk.injEq]
  rfl

theorem usesOneLock_iff {b : DmaBlock} :
    usesOneLock b = true ↔ ∀ u ∈ b.locks, ∀ v ∈ b.locks, u.lock = v.lock := by
  unfold usesOneLock
  cases b.locks with
  | nil => simp
  | cons first rest =>
    simp only [List.all_eq_true, beq_iff_eq]
    constructor
    · intro h
      have hfirst : ∀ u ∈ first :: rest, u.lock = first.lock := by
        intro u hu
        rcases List.mem_cons.mp hu with rfl | hu
        · rfl
        · exact h u hu
      intro u hu v hv
      rw [hfirst u hu, hfirst v hv]
    · intro h u hu
      exact h u (List.mem_cons_of_mem _ hu) first List.mem_cons_self

theorem enumerates_portIssues (tile : Coordinates) (p : Port) (side : Side) :
    Enumerates (Fails (p.InRange side (tile.row == 0)) (.portIndex tile p side))
      (portIssues tile p side) := by
  unfold portIssues Port.InRange
  cases p.bundle.ports side (tile.row == 0) with
  | none =>
    refine Enumerates.nil ?_
    rintro k e ⟨-, hin, -⟩
    exact hin nofun
  | some range =>
    refine enumerates_require ?_ _
    simp

theorem enumerates_tileIssues (d : Device) (i : Nat) (x : Tile) :
    Enumerates (x.Breaks d i) (tileIssues ((d.tiles.take i).map place).reverse x) := by
  have hrange : (decide (x.column ≤ maxColumn) && decide (x.row ≤ maxRow)) = true ↔
      x.column ≤ 127 ∧ x.row ≤ 31 := by
    rw [Bool.and_eq_true, decide_eq_true_eq, decide_eq_true_eq]
    rfl
  have hkind : ((x.kind == .compute) != x.isShim) = true ↔ (x.kind = .compute ↔ x.row ≠ 0) := by
    rw [bne_iff_ne, Tile.isShim, ne_eq, Bool.eq_iff_iff, beq_iff_eq, beq_iff_eq]
    by_cases hk : x.kind = .compute <;> by_cases hr : x.row = 0 <;> simp [hk, hr]
  refine Enumerates.congr (.next (.next (.next (.first
    (enumerates_require hrange _))
    (enumerates_require bne_iff_ne _))
    (enumerates_require not_contains_iff _))
    (enumerates_require hkind _)) fun k e => ?_
  constructor
  · rintro ⟨n, k, rfl, hb⟩
    rcases n with _ | _ | _ | _ | n
    · obtain ⟨rfl, h, rfl⟩ := hb
      exact .range h
    · obtain ⟨rfl, h, rfl⟩ := hb
      exact .column (Classical.not_not.mp h)
    · obtain ⟨rfl, h, rfl⟩ := hb
      exact .place (Classical.not_not.mp h)
    · obtain ⟨rfl, h, rfl⟩ := hb
      exact .kind h
    · cases hb
  · intro h
    cases h with
    | range out => exact ⟨0, _, rfl, rfl, out, rfl⟩
    | column zero => exact ⟨1, _, rfl, rfl, not_not_intro zero, rfl⟩
    | place twice => exact ⟨2, _, rfl, rfl, not_not_intro twice, rfl⟩
    | kind other => exact ⟨3, _, rfl, rfl, other, rfl⟩

/-- A rule on declared tiles. -/
theorem enumerates_tileReference (d : Device) (part : Part) (column row : UInt8) :
    Enumerates (Fails (Declared d column row) (.undeclaredTile part ⟨column, row⟩))
      (tileReference d part ⟨column, row⟩) :=
  enumerates_require any_place_iff _

/-! ### DMA programs -/

section Memory

variable {d : Device} {m : MemoryDma} {b : DmaBlock} {i : Nat}

theorem enumerates_transferIssues {t : Transfer} (ht : b.transfers[i]? = some t) :
    Enumerates (fun k e => b.Breaks d m (1 :: i :: k) e)
      (transferIssues d ⟨m.column, m.row⟩ b.label
        ((b.transfers.take i).map Transfer.slot).reverse t) := by
  refine Enumerates.congr (.next (.first
    (enumerates_require isSome_find?_name _))
    (enumerates_require not_contains_iff _)) fun k e => ?_
  constructor
  · rintro ⟨n, k, rfl, hb⟩
    rcases n with _ | _ | n
    · obtain ⟨rfl, h, rfl⟩ := hb
      exact .buffer ht h
    · obtain ⟨rfl, h, rfl⟩ := hb
      exact .slot ht (Classical.not_not.mp h)
    · cases hb
  · intro h
    cases h with
    | buffer item unknown =>
      cases item.symm.trans ht
      exact ⟨0, _, rfl, rfl, unknown, rfl⟩
    | slot item twice =>
      cases item.symm.trans ht
      exact ⟨1, _, rfl, rfl, not_not_intro twice, rfl⟩

theorem enumerates_next (m : MemoryDma) (b : DmaBlock) :
    Enumerates (fun k e => ∃ target, b.next = some target ∧ Fails (target ∈ labels m)
        (.unknownBlock ⟨m.column, m.row⟩ b.label target) k e)
      (match b.next with
        | none => []
        | some next => require ((labels m).contains next)
            (.unknownBlock ⟨m.column, m.row⟩ b.label next)) := by
  cases b.next with
  | none =>
    refine Enumerates.nil ?_
    rintro k e ⟨target, h, -⟩
    cases h
  | some next =>
    refine (enumerates_require List.contains_iff_mem _).congr fun k e => ?_
    simp

theorem enumerates_blockIssues (d : Device) (m : MemoryDma) (b : DmaBlock) :
    Enumerates (b.Breaks d m) (blockIssues d m ⟨m.column, m.row⟩ b) := by
  refine Enumerates.congr (.next (.next (.next (.first
    (enumerates_next m b))
    (enumerates_withEarlier fun i t ht => enumerates_transferIssues ht))
    (enumerates_flatMap fun i u _ => enumerates_require isSome_find?_name _))
    (enumerates_require usesOneLock_iff _)) fun k e => ?_
  constructor
  · rintro ⟨n, k, rfl, hb⟩
    rcases n with _ | _ | _ | _ | n
    · obtain ⟨target, hnext, rfl, h, rfl⟩ := hb
      exact .next hnext h
    · obtain ⟨i, t, ht, _, rfl, h⟩ := hb
      exact h
    · obtain ⟨i, u, hu, _, rfl, rfl, h, rfl⟩ := hb
      exact .lock hu h
    · obtain ⟨rfl, h, rfl⟩ := hb
      exact .locks h
    · cases hb
  · intro h
    cases id h with
    | next next_eq unknown => exact ⟨0, _, rfl, _, next_eq, rfl, unknown, rfl⟩
    | buffer item unknown => exact ⟨1, _, rfl, _, _, item, _, rfl, h⟩
    | slot item twice => exact ⟨1, _, rfl, _, _, item, _, rfl, h⟩
    | lock item unknown =>
      exact ⟨2, _, rfl, _, _, item, _, rfl, rfl, unknown, rfl⟩
    | locks other => exact ⟨3, _, rfl, rfl, other, rfl⟩

theorem enumerates_startIssues {s : ChannelStart} (hs : m.starts[i]? = some s) :
    Enumerates (fun k e => m.Breaks d (5 :: i :: k) e)
      (startIssues m ⟨m.column, m.row⟩ s) := by
  refine Enumerates.congr (.next (.first
    (enumerates_require List.contains_iff_mem _))
    (enumerates_require decide_eq_true_iff _)) fun k e => ?_
  constructor
  · rintro ⟨n, k, rfl, hb⟩
    rcases n with _ | _ | n
    · obtain ⟨rfl, h, rfl⟩ := hb
      exact .start hs h
    · obtain ⟨rfl, h, rfl⟩ := hb
      exact .channel hs (UInt8.not_le.mp h)
    · cases hb
  · intro h
    cases h with
    | start item unknown =>
      cases item.symm.trans hs
      exact ⟨0, _, rfl, rfl, unknown, rfl⟩
    | channel item above =>
      cases item.symm.trans hs
      exact ⟨1, _, rfl, rfl, UInt8.not_le.mpr above, rfl⟩

theorem enumerates_memory (d : Device) (m : MemoryDma) :
    Enumerates (m.Breaks d) (tileReference d .memory ⟨m.column, m.row⟩ ++ memoryIssues d m) := by
  simp only [memoryIssues, ← List.append_assoc]
  refine Enumerates.congr (.next (.next (.next (.next (.next (.first
    (enumerates_tileReference d .memory m.column m.row))
    (enumerates_require bne_iff_ne _))
    (enumerates_withEarlier fun i b _ => enumerates_require not_contains_iff _))
    (enumerates_require decide_eq_true_iff _))
    (enumerates_flatMap fun i b _ => enumerates_blockIssues d m b))
    (enumerates_flatMap fun i s hs => enumerates_startIssues (d := d) hs)) fun k e => ?_
  constructor
  · rintro ⟨n, k, rfl, hb⟩
    rcases n with _ | _ | _ | _ | _ | _ | n
    · obtain ⟨rfl, h, rfl⟩ := hb
      exact .tile h
    · obtain ⟨rfl, h, rfl⟩ := hb
      exact .row (Classical.not_not.mp h)
    · obtain ⟨i, b, hb, _, rfl, rfl, h, rfl⟩ := hb
      exact .label hb (Classical.not_not.mp h)
    · obtain ⟨rfl, h, rfl⟩ := hb
      exact .count (Nat.not_le.mp h)
    · obtain ⟨i, b, hb, _, rfl, h⟩ := hb
      exact .block hb h
    · obtain ⟨i, s, hs, _, rfl, h⟩ := hb
      exact h
    · cases hb
  · intro h
    cases id h with
    | tile undeclared => exact ⟨0, _, rfl, rfl, undeclared, rfl⟩
    | row shim => exact ⟨1, _, rfl, rfl, not_not_intro shim, rfl⟩
    | label item twice =>
      exact ⟨2, _, rfl, _, _, item, _, rfl, rfl, not_not_intro twice, rfl⟩
    | count above => exact ⟨3, _, rfl, rfl, Nat.not_le.mpr above, rfl⟩
    | block item breaks => exact ⟨4, _, rfl, _, _, item, _, rfl, breaks⟩
    | start item unknown => exact ⟨5, _, rfl, _, _, item, _, rfl, h⟩
    | channel item above => exact ⟨5, _, rfl, _, _, item, _, rfl, h⟩

end Memory

/-! ### Switchboxes -/

section Switchbox

variable {s : Switchbox} {i : Nat}

theorem enumerates_amselIssues (s : Switchbox) (name : String) :
    Enumerates (Fails (∃ a ∈ s.amsels, a.name = name) (.unknownAmsel ⟨s.column, s.row⟩ name))
      (amselIssues s ⟨s.column, s.row⟩ name) :=
  enumerates_require isSome_find?_name _

theorem enumerates_connect {c : Connect} (hc : s.connects[i]? = some c) :
    Enumerates (fun k e => s.Breaks (0 :: i :: k) e)
      (portIssues ⟨s.column, s.row⟩ c.source .slave ++
        portIssues ⟨s.column, s.row⟩ c.dest .master) := by
  refine Enumerates.congr (.next (.first
    (enumerates_portIssues _ c.source .slave))
    (enumerates_portIssues _ c.dest .master)) fun k e => ?_
  constructor
  · rintro ⟨n, k, rfl, hb⟩
    rcases n with _ | _ | n
    · obtain ⟨rfl, h, rfl⟩ := hb
      exact .source hc h
    · obtain ⟨rfl, h, rfl⟩ := hb
      exact .dest hc h
    · cases hb
  · intro h
    cases h with
    | source item out =>
      cases item.symm.trans hc
      exact ⟨0, _, rfl, rfl, out, rfl⟩
    | dest item out =>
      cases item.symm.trans hc
      exact ⟨1, _, rfl, rfl, out, rfl⟩

theorem enumerates_masterSet {m : MasterSet} (hm : s.masterSets[i]? = some m) :
    Enumerates (fun k e => s.Breaks (1 :: i :: k) e)
      (portIssues ⟨s.column, s.row⟩ m.dest .master ++
        require (!m.amsels.isEmpty) (.emptyMasterSet ⟨s.column, s.row⟩) ++
        m.amsels.flatMap (amselIssues s ⟨s.column, s.row⟩)) := by
  have hnil : (!m.amsels.isEmpty) = true ↔ m.amsels ≠ [] := by simp
  refine Enumerates.congr (.next (.next (.first
    (enumerates_portIssues _ m.dest .master))
    (enumerates_require hnil _))
    (enumerates_flatMap fun j name _ => enumerates_amselIssues s name)) fun k e => ?_
  constructor
  · rintro ⟨n, k, rfl, hb⟩
    rcases n with _ | _ | _ | n
    · obtain ⟨rfl, h, rfl⟩ := hb
      exact .master hm h
    · obtain ⟨rfl, h, rfl⟩ := hb
      exact .empty hm (Classical.not_not.mp h)
    · obtain ⟨j, name, hname, _, rfl, rfl, h, rfl⟩ := hb
      exact .amsel hm hname h
    · cases hb
  · intro h
    cases h with
    | master item out =>
      cases item.symm.trans hm
      exact ⟨0, _, rfl, rfl, out, rfl⟩
    | empty item none =>
      cases item.symm.trans hm
      exact ⟨1, _, rfl, rfl, not_not_intro none, rfl⟩
    | amsel item amsel unknown =>
      cases item.symm.trans hm
      exact ⟨2, _, rfl, _, _, amsel, _, rfl, rfl, unknown, rfl⟩

theorem enumerates_packetTable {p : PacketTable} (hp : s.packetTables[i]? = some p) :
    Enumerates (fun k e => s.Breaks (2 :: i :: k) e)
      (portIssues ⟨s.column, s.row⟩ p.source .slave ++
        p.rules.flatMap fun r => amselIssues s ⟨s.column, s.row⟩ r.amsel) := by
  refine Enumerates.congr (.next (.first
    (enumerates_portIssues _ p.source .slave))
    (enumerates_flatMap fun j r _ => enumerates_amselIssues s r.amsel)) fun k e => ?_
  constructor
  · rintro ⟨n, k, rfl, hb⟩
    rcases n with _ | _ | n
    · obtain ⟨rfl, h, rfl⟩ := hb
      exact .table hp h
    · obtain ⟨j, r, hr, _, rfl, rfl, h, rfl⟩ := hb
      exact .rule hp hr h
    · cases hb
  · intro h
    cases h with
    | table item out =>
      cases item.symm.trans hp
      exact ⟨0, _, rfl, rfl, out, rfl⟩
    | rule item rule unknown =>
      cases item.symm.trans hp
      exact ⟨1, _, rfl, _, _, rule, _, rfl, rfl, unknown, rfl⟩

theorem enumerates_switchboxIssues (s : Switchbox) :
    Enumerates s.Breaks (switchboxIssues s) := by
  refine Enumerates.congr (.next (.next (.first
    (enumerates_flatMap fun i c hc => enumerates_connect hc))
    (enumerates_flatMap fun i m hm => enumerates_masterSet hm))
    (enumerates_flatMap fun i p hp => enumerates_packetTable hp)) fun k e => ?_
  constructor
  · rintro ⟨n, k, rfl, hb⟩
    rcases n with _ | _ | _ | n
    · obtain ⟨i, c, hc, _, rfl, h⟩ := hb
      exact h
    · obtain ⟨i, m, hm, _, rfl, h⟩ := hb
      exact h
    · obtain ⟨i, p, hp, _, rfl, h⟩ := hb
      exact h
    · cases hb
  · intro h
    cases id h with
    | source item out => exact ⟨0, _, rfl, _, _, item, _, rfl, h⟩
    | dest item out => exact ⟨0, _, rfl, _, _, item, _, rfl, h⟩
    | master item out => exact ⟨1, _, rfl, _, _, item, _, rfl, h⟩
    | empty item none => exact ⟨1, _, rfl, _, _, item, _, rfl, h⟩
    | amsel item amsel unknown => exact ⟨1, _, rfl, _, _, item, _, rfl, h⟩
    | table item out => exact ⟨2, _, rfl, _, _, item, _, rfl, h⟩
    | rule item rule unknown => exact ⟨2, _, rfl, _, _, item, _, rfl, h⟩

end Switchbox

/-! ### Designs -/

section Design

variable {d : Device} {i : Nat}

theorem enumerates_lock {l : Lock} (hl : d.locks[i]? = some l) :
    Enumerates (fun k e => d.Breaks (3 :: i :: k) e)
      (tileReference d (.lock l.name) ⟨l.column, l.row⟩ ++
        require (decide (l.id ≤ maxLockId)) (.lockId l.name l.id)) := by
  refine Enumerates.congr (.next (.first
    (enumerates_tileReference d _ l.column l.row))
    (enumerates_require decide_eq_true_iff _)) fun k e => ?_
  constructor
  · rintro ⟨n, k, rfl, hb⟩
    rcases n with _ | _ | n
    · obtain ⟨rfl, h, rfl⟩ := hb
      exact .lock hl h
    · obtain ⟨rfl, h, rfl⟩ := hb
      exact .lockId hl (UInt8.not_le.mp h)
    · cases hb
  · intro h
    cases h with
    | lock item undeclared =>
      cases item.symm.trans hl
      exact ⟨0, _, rfl, rfl, undeclared, rfl⟩
    | lockId item above =>
      cases item.symm.trans hl
      exact ⟨1, _, rfl, rfl, UInt8.not_le.mpr above, rfl⟩

theorem enumerates_shimMux {m : ShimMux} (hm : d.shimMuxes[i]? = some m) :
    Enumerates (fun k e => d.Breaks (5 :: i :: k) e)
      (tileReference d .shimMux ⟨m.column, m.row⟩ ++
        require (m.row == 0) (.muxOffShimRow ⟨m.column, m.row⟩)) := by
  refine Enumerates.congr (.next (.first
    (enumerates_tileReference d _ m.column m.row))
    (enumerates_require beq_iff_eq _)) fun k e => ?_
  constructor
  · rintro ⟨n, k, rfl, hb⟩
    rcases n with _ | _ | n
    · obtain ⟨rfl, h, rfl⟩ := hb
      exact .muxTile hm h
    · obtain ⟨rfl, h, rfl⟩ := hb
      exact .muxRow hm h
    · cases hb
  · intro h
    cases h with
    | muxTile item undeclared =>
      cases item.symm.trans hm
      exact ⟨0, _, rfl, rfl, undeclared, rfl⟩
    | muxRow item inner =>
      cases item.symm.trans hm
      exact ⟨1, _, rfl, rfl, inner, rfl⟩

theorem enumerates_issues (d : Device) : Enumerates d.Breaks d.issues := by
  refine Enumerates.congr (.next (.next (.next (.next (.next (.next (.next (.first
    (enumerates_require beq_iff_eq _))
    (enumerates_withEarlier fun i x _ => enumerates_tileIssues d i x))
    (enumerates_flatMap fun i b _ => enumerates_tileReference d _ b.column b.row))
    (enumerates_flatMap fun i l hl => enumerates_lock hl))
    (enumerates_flatMap fun i s _ => enumerates_tileReference d _ s.column s.row))
    (enumerates_flatMap fun i m hm => enumerates_shimMux hm))
    (enumerates_flatMap fun i m _ => enumerates_memory d m))
    (enumerates_flatMap fun i s _ => enumerates_switchboxIssues s)) fun k e => ?_
  constructor
  · rintro ⟨n, k, rfl, hb⟩
    rcases n with _ | _ | _ | _ | _ | _ | _ | _ | n
    · obtain ⟨rfl, h, rfl⟩ := hb
      exact .version h
    · obtain ⟨i, x, hx, _, rfl, h⟩ := hb
      exact .tile hx h
    · obtain ⟨i, b, hb, _, rfl, rfl, h, rfl⟩ := hb
      exact .buffer hb h
    · obtain ⟨i, l, hl, _, rfl, h⟩ := hb
      exact h
    · obtain ⟨i, s, hs, _, rfl, rfl, h, rfl⟩ := hb
      exact .switchboxTile hs h
    · obtain ⟨i, m, hm, _, rfl, h⟩ := hb
      exact h
    · obtain ⟨i, m, hm, _, rfl, h⟩ := hb
      exact .memory hm h
    · obtain ⟨i, s, hs, _, rfl, h⟩ := hb
      exact .switchbox hs h
    · cases hb
  · intro h
    cases id h with
    | version other => exact ⟨0, _, rfl, rfl, other, rfl⟩
    | tile item breaks => exact ⟨1, _, rfl, _, _, item, _, rfl, breaks⟩
    | buffer item undeclared =>
      exact ⟨2, _, rfl, _, _, item, _, rfl, rfl, undeclared, rfl⟩
    | lock item undeclared => exact ⟨3, _, rfl, _, _, item, _, rfl, h⟩
    | lockId item above => exact ⟨3, _, rfl, _, _, item, _, rfl, h⟩
    | switchboxTile item undeclared =>
      exact ⟨4, _, rfl, _, _, item, _, rfl, rfl, undeclared, rfl⟩
    | muxTile item undeclared => exact ⟨5, _, rfl, _, _, item, _, rfl, h⟩
    | muxRow item inner => exact ⟨5, _, rfl, _, _, item, _, rfl, h⟩
    | memory item breaks => exact ⟨6, _, rfl, _, _, item, _, rfl, breaks⟩
    | switchbox item breaks => exact ⟨7, _, rfl, _, _, item, _, rfl, breaks⟩

end Design

theorem issues_eq_nil_iff {d : Device} : d.issues = [] ↔ d.WellFormed :=
  (enumerates_issues d).eq_nil_iff.trans Device.wellFormed_iff.symm

/-- A design is valid when it is well-formed, and otherwise the issues are exactly the ways in which
it is not, each of them once. -/
theorem issues_exact (d : Device) :
    (d.issues = [] ↔ d.WellFormed) ∧ Enumerates d.Breaks d.issues :=
  ⟨issues_eq_nil_iff, enumerates_issues d⟩

def twiceAtZero : Device where
  schemaVersion := "2.0"
  name := "twice"
  arrayOffset := 0
  tiles := [⟨0, 1, none, none⟩, ⟨0, 1, none, none⟩]
  buffers := []
  locks := []
  memories := []
  switchboxes := []
  shimMuxes := []

example : twiceAtZero.issues =
    [.schemaVersion "2.0", .columnZero ⟨0, 1⟩, .columnZero ⟨0, 1⟩, .duplicateTile ⟨0, 1⟩] := by
  decide

end ArrayImage
