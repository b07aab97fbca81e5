import ArrayImage.Proofs.Address
import ArrayImage.WriteLog

/-!
# ArrayImage.Proofs.WriteLog

What a log holds after some writes. The word at an address depends only on the writes to that
address, in their order (`get?_applyAll`), so a log can be studied one register at a time. When
all writes to an address are replacements, the last one counts (`get?_applyAll_of_puts`).
-/

namespace ArrayImage

/-- The word that a write puts at `address`; bits that are turned on are no word of their own. -/
def Write.wordAt? (address : Nat) (w : Write) : Option Word :=
  if w.address = address then
    match w.update with
    | .put value => some value
    | .raise _ => none
  else none

theorem Write.wordAt?_of_ne {w : Write} {a : Nat} (h : w.address ≠ a) : w.wordAt? a = none :=
  if_neg h

theorem Write.wordAt?_of_put {w : Write} {a : Nat} {v : Word} (ha : w.address = a)
    (hv : w.update = .put v) : w.wordAt? a = some v := by
  rw [wordAt?, if_pos ha, hv]

namespace WriteLog

theorem ext_get? {log log' : WriteLog} (h : ∀ a, log.get? a = log'.get? a) : log = log' := by
  obtain ⟨words⟩ := log
  obtain ⟨words'⟩ := log'
  congr 1
  exact Std.ExtTreeMap.ext_getElem? h

@[simp] theorem get?_empty (a : Nat) : empty.get? a = none := by
  simp [get?, empty]

/-! ## Writes -/

theorem get?_apply (log : WriteLog) (w : Write) (a : Nat) :
    (log.apply w).get? a =
      if w.address = a then some (w.update.on ((log.get? a).getD 0)) else log.get? a := by
  simp only [get?, apply, Std.ExtTreeMap.getElem?_insert, Std.compare_eq_iff_eq]
  split
  · rename_i h
    subst h
    rfl
  · rfl

@[simp] theorem applyAll_nil (log : WriteLog) : log.applyAll [] = log := rfl

@[simp] theorem applyAll_cons (log : WriteLog) (w : Write) (ws : List Write) :
    log.applyAll (w :: ws) = (log.apply w).applyAll ws := rfl

theorem applyAll_append (log : WriteLog) (xs ys : List Write) :
    log.applyAll (xs ++ ys) = (log.applyAll xs).applyAll ys :=
  List.foldl_append

/-- The word at an address after some writes: only those to this address count. -/
theorem get?_applyAll (log : WriteLog) (ws : List Write) (a : Nat) :
    (log.applyAll ws).get? a =
      (ws.filter (·.address = a)).foldl (fun c w => some (w.update.on (c.getD 0))) (log.get? a) := by
  induction ws generalizing log with
  | nil => rfl
  | cons w ws ih =>
    rw [applyAll_cons, ih, get?_apply, List.filter_cons]
    by_cases h : w.address = a <;> simp [h]

theorem get?_applyAll_congr {log log' : WriteLog} {xs ys : List Write} {a : Nat}
    (h : log.get? a = log'.get? a)
    (hw : xs.filter (·.address = a) = ys.filter (·.address = a)) :
    (log.applyAll xs).get? a = (log'.applyAll ys).get? a := by
  rw [get?_applyAll, get?_applyAll, hw, h]

theorem get?_applyAll_of_not_written {log : WriteLog} {ws : List Write} {a : Nat}
    (h : ∀ w ∈ ws, w.address ≠ a) : (log.applyAll ws).get? a = log.get? a := by
  have hnil : ws.filter (·.address = a) = [] := by
    simpa [List.filter_eq_nil_iff] using h
  rw [get?_applyAll, hnil]
  rfl

/-- When an address is only ever replaced, the last replacement is what it holds. -/
theorem get?_applyAll_of_puts {log : WriteLog} {ws : List Write} {a : Nat}
    (h : ∀ w ∈ ws, w.address = a → ∃ v, w.update = .put v) :
    (log.applyAll ws).get? a = (ws.filterMap (Write.wordAt? a)).getLast?.or (log.get? a) := by
  induction ws generalizing log with
  | nil => rfl
  | cons w ws ih =>
    rw [applyAll_cons, ih fun x hx => h x (List.mem_cons_of_mem _ hx), get?_apply,
      List.filterMap_cons]
    by_cases hw : w.address = a
    · obtain ⟨v, hv⟩ := h w List.mem_cons_self hw
      rw [if_pos hw, Write.wordAt?_of_put hw hv, hv, Update.on, List.getLast?_cons]
      cases (ws.filterMap (Write.wordAt? a)).getLast? <;> rfl
    · rw [if_neg hw, Write.wordAt?_of_ne hw]

theorem isSome_get?_applyAll (log : WriteLog) (ws : List Write) (a : Nat) :
    ((log.applyAll ws).get? a).isSome ↔ (log.get? a).isSome ∨ ∃ w ∈ ws, w.address = a := by
  induction ws generalizing log with
  | nil => simp
  | cons w ws ih =>
    rw [applyAll_cons, ih, get?_apply]
    by_cases hw : w.address = a <;> simp [hw]

theorem get?_applyAll_filter_tile (log : WriteLog) (ws : List Write) (p : TileId → Bool) (a : Nat) :
    (log.applyAll (ws.filter fun w => p w.register.tile)).get? a =
      if p (TileId.ofAddress a) then (log.applyAll ws).get? a else log.get? a := by
  have htile : ∀ w : Write, w.address = a → w.register.tile = TileId.ofAddress a := fun w hw => by
    rw [← hw, Write.address, Register.tile_ofAddress]
  cases hp : p (TileId.ofAddress a) with
  | true =>
    rw [if_pos rfl]
    refine get?_applyAll_congr rfl ?_
    rw [List.filter_filter]
    refine List.filter_congr fun w _ => ?_
    by_cases hw : w.address = a
    · rw [htile w hw, hp, Bool.and_true]
    · rw [decide_eq_false hw, Bool.false_and]
  | false =>
    rw [if_neg Bool.false_ne_true]
    refine get?_applyAll_of_not_written fun w hm hw => ?_
    have hpw := (List.mem_filter.mp hm).2
    rw [htile w hw, hp] at hpw
    cases hpw

/-! ## Entries -/

theorem mem_entries_iff {log : WriteLog} {a : Nat} {v : Word} :
    (a, v) ∈ log.entries ↔ log.get? a = some v :=
  Std.ExtTreeMap.mem_toList_iff_getElem?_eq_some

theorem entries_ascending (log : WriteLog) : log.entries.Pairwise (·.1 < ·.1) :=
  log.words.ordered_keys_toList.imp Nat.compare_eq_lt.mp

theorem entries_of_get?_filter {log log' : WriteLog} {p : Nat → Bool}
    (h : ∀ a, log'.get? a = if p a then log.get? a else none) :
    log'.entries = log.entries.filter fun e => p e.1 := by
  have hw : log' = ⟨log.words.filter fun a _ => p a⟩ := by
    apply ext_get?
    intro a
    rw [h, get?, get?, Std.ExtTreeMap.getElem?_filter']
    cases p a <;> cases log.words[a]? <;> rfl
  rw [hw]
  exact Std.ExtTreeMap.toList_filter

end WriteLog
end ArrayImage
