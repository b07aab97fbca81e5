import ArrayImage.Proofs.Abridgement
import ArrayImage.Yaml.Decode
import Mathlib.Data.Option.Basic

/-!
# ArrayImage.Proofs.Nodes

A node with fields left out stands for the whole data.

`Yaml.ofValue` writes texts in quotes, numbers by their decimal digits and missing values as `null`.
A plain scalar of digits is read as the number and as nothing else (`number?_toString`), and
`decode_ofValue` reads back what was written, by induction on the shape. No aliases are written, so
none are followed.
-/

namespace ArrayImage
namespace Yaml

/-! ## Data as nodes -/

mutual

def ofValue : Value → Node
  | .null => .scalar .none .plain "null"
  | .number n => .scalar .none .plain (toString n)
  | .text s => .scalar .none .quoted s
  | .list items => .sequence .none (ofValues items)
  | .record fields => .mapping .none (ofFields fields)

def ofValues : List Value → Items
  | [] => .done
  | v :: rest => .item (ofValue v) (ofValues rest)

def ofFields : List (String × Value) → Entries
  | [] => .done
  | (name, v) :: rest => .entry (.scalar .none .plain name) (ofValue v) (ofFields rest)

end

/-! ## Numbers -/

theorem hexValue?_of_isDigit {c : Char} (h : c.isDigit = true) :
    Text.hexValue? c = some (c.toNat - '0'.toNat) ∧ c.toNat - '0'.toNat < 10 := by
  rw [Char.isDigit, Bool.and_eq_true, decide_eq_true_eq, decide_eq_true_eq] at h
  refine ⟨if_pos h, ?_⟩
  have hle : c.toNat ≤ '9'.toNat := h.2
  have hnine : '9'.toNat = '0'.toNat + 9 := rfl
  omega

theorem digitsIn?_of_isDigit {cs : List Char} (hne : cs ≠ []) (h : ∀ c ∈ cs, c.isDigit = true) :
    digitsIn? 10 cs = some (Nat.ofDigitChars 10 cs 0) := by
  have hfold : ∀ n, cs.foldlM (fun n c => do
      let d ← Text.hexValue? c
      guard (d < 10)
      return 10 * n + d) n = some (Nat.ofDigitChars 10 cs n) := by
    clear hne
    induction cs with
    | nil => exact fun _ => rfl
    | cons c cs ih =>
      intro n
      obtain ⟨hc, hcs⟩ := List.forall_mem_cons.mp h
      obtain ⟨hvalue, hlt⟩ := hexValue?_of_isDigit hc
      have hguard : (guard (c.toNat - '0'.toNat < 10) : Option Unit) = some () := if_pos hlt
      rw [List.foldlM_cons, hvalue, Option.bind_eq_bind, Option.bind_some, hguard]
      exact ih hcs _
  rw [digitsIn?, if_neg (by simpa using hne), hfold]

/-- No number but zero starts with a zero. -/
theorem head?_toDigits {n : Nat} (hn : 0 < n) : (Nat.toDigits 10 n).head? ≠ some '0' := by
  induction n using Nat.strongRecOn with
  | _ n ih =>
    rw [Nat.toDigits_eq_if (by decide)]
    by_cases hlt : n < 10
    · have hdigit : ∀ d < 10, 0 < d → [Nat.digitChar d].head? ≠ some '0' := by decide
      rw [if_pos hlt]
      exact hdigit n hlt hn
    · rw [if_neg hlt, List.head?_append_of_ne_nil _ Nat.toDigits_ne_nil]
      exact ih (n / 10) (by omega) (by omega)

theorem numberBase_of_isDigit {cs : List Char} (h : ∀ c ∈ cs, c.isDigit = true) :
    numberBase cs = (10, cs) := by
  fun_cases numberBase cs with
  | case1 rest => exact absurd (h 'x' (by simp)) (by decide)
  | case2 rest => exact absurd (h 'o' (by simp)) (by decide)
  | case3 rest => exact absurd (h 'b' (by simp)) (by decide)
  | case4 => rfl

/-- The decimal digits of a number stand for that number. -/
theorem number?_toString (n : Nat) : number? (toString n) = some n := by
  have hdigits : ∀ c ∈ Nat.toDigits 10 n, c.isDigit = true := fun c hc =>
    Nat.isDigit_of_mem_toDigits (by decide) (by decide) hc
  have hlist : (toString n).toList = Nat.toDigits 10 n := Nat.toList_repr
  have hzero : ¬ (10 = 10 ∧ (Nat.toDigits 10 n).head? = some '0' ∧
      (Nat.toDigits 10 n).length ≠ 1) := by
    rintro ⟨-, hhead, hlength⟩
    rcases Nat.eq_zero_or_pos n with rfl | hn
    · exact hlength rfl
    · exact head?_toDigits hn hhead
  rw [number?, hlist]
  split
  rename_i base digits hbase
  split at hbase
  · rename_i rest hplus
    exact absurd (hdigits '+' (hplus ▸ List.mem_cons_self)) (by decide)
  · rw [numberBase_of_isDigit hdigits] at hbase
    cases hbase
    rw [if_neg hzero, digitsIn?_of_isDigit Nat.toDigits_ne_nil hdigits,
      Nat.ofDigitChars_toDigits (by decide) (by decide)]

/-- What is read as a number does not say that there is no value. -/
theorem not_null_of_number? {text : String} {n : Nat} (h : number? text = some n) :
    (text.isEmpty || isNullText text) = false := by
  rw [Bool.eq_false_iff]
  intro hnull
  have hmem : text ∈ ["", "null", "Null", "NULL", "~"] := by
    simpa [isNullText] using hnull
  have hnone : ∀ t ∈ ["", "null", "Null", "NULL", "~"], number? t = none := by decide
  rw [hnone text hmem] at h
  cases h

/-! ## Reading nodes -/

section Reading

variable {anchors : List (Nat × Node)} {s : Shape} {v w : Value}

theorem liftM_some {α : Type} (a : α) : (liftM (some a) : Decoding α) = pure a := rfl

theorem follow_ofValue (v : Value) : follow anchors (ofValue v) = pure (ofValue v) := by
  cases v <;> rfl

theorem isNull?_ofValue (hv : v ≠ .null) : isNull? (ofValue v) = some false := by
  cases v with
  | null => exact absurd rfl hv
  | number n => exact congrArg some (not_null_of_number? (number?_toString n))
  | text | list | record => rfl

/-- The value of a field, where the record has such a field. -/
theorem decodeField_ofValue {fields : Fields} {name : String} {p : Presence}
    (hfind : fields.find? name = some (p, s)) (hplace : p.IsMissing v ∨ s.Fits v)
    (h : s.Abridges v w) (hread : s.Fits v → decode anchors s (ofValue w) = pure v) :
    decodeField anchors fields name (ofValue w) = pure (some v) := by
  fun_induction Fields.names fields with
  | case1 => cases hfind
  | case2 n presence shape rest ih =>
    rw [Fields.find?] at hfind
    unfold decodeField
    split at hfind
    · rename_i hname
      cases hfind
      rw [if_neg (not_not_intro hname)]
      rcases hplace with ⟨rfl, rfl⟩ | hfits
      · rw [h.eq_null]
        rfl
      · have hnull := isNull?_ofValue (h.ne_null hfits.ne_null)
        cases p with
        | optional =>
          simp only [follow_ofValue, pure_bind, hnull, hread hfits, map_pure]
          rfl
        | required | default => simp only [hread hfits, map_pure]
    · rename_i hname
      rw [if_pos hname]
      exact ih hfind

/-- The items that were read, given how each of them is read. -/
theorem mapM_ofValues {vs ws : List Value}
    (h : List.Forall₂ (fun v w => decode anchors s (ofValue w) = pure v) vs ws) :
    (ofValues ws).toList.mapM (decode anchors s) = pure vs := by
  induction h with
  | nil => rfl
  | cons hv _ ih =>
    rw [ofValues, Items.toList, List.mapM_cons, hv, ih]
    simp only [pure_bind]

/-- Add what an entry of a mapping says. -/
def collect (anchors : List (Nat × Node)) (fields : Fields) (found : List (String × Value))
    (entry : Node × Node) : Decoding (List (String × Value)) := do
  let name ← textOf? (← follow anchors entry.1)
  addField found name (← decodeField anchors fields name entry.2)

/-- The entries of a record are collected, last to first. -/
theorem foldlM_ofFields {fields : Fields} {xs ws found : List (String × Value)}
    (h : List.Forall₂ (fun x y => x.1 = y.1 ∧
      decodeField anchors fields x.1 (ofValue y.2) = pure (some x.2)) xs ws)
    (hn : (xs.map Prod.fst).Nodup) (hnew : ∀ x ∈ xs, found.lookup x.1 = none) :
    (ofFields ws).toList.foldlM (collect anchors fields) found = pure (xs.reverse ++ found) := by
  induction h generalizing found with
  | nil => rfl
  | @cons x y xs ws hxy _ ih =>
    obtain ⟨name, v⟩ := x
    obtain ⟨name', w⟩ := y
    obtain ⟨rfl, hread⟩ := hxy
    obtain ⟨hname, hn⟩ := List.nodup_cons.mp hn
    obtain ⟨hnone, hnew⟩ := List.forall_mem_cons.mp hnew
    have hentry : collect anchors fields found (.scalar .none .plain name, ofValue w) =
        pure ((name, v) :: found) := by
      have hkey : collect anchors fields found (.scalar .none .plain name, ofValue w) =
          decodeField anchors fields name (ofValue w) >>= addField found name := rfl
      rw [hkey, hread, pure_bind, addField, hnone]
      rfl
    rw [ofFields, Entries.toList, List.foldlM_cons, hentry, pure_bind,
      ih hn (lookup_cons_eq_none v hname hnew), List.reverse_cons, List.append_assoc]
    rfl

/-- Data that fits its shape is read back from its node, whichever fields were left out. -/
theorem decode_ofValue (hd : s.distinct = true) (hf : s.Fits v) (h : s.Abridges v w) :
    decode anchors s (ofValue w) = pure v := by
  induction s using Shape.induction generalizing v w with
  | text =>
    cases v <;> try exact hf.elim
    rw [h.of_text]
    rfl
  | number bits =>
    cases v <;> try exact hf.elim
    rename_i n
    rw [h.of_number, decode, follow_ofValue, pure_bind]
    have hnumber : numberOf? (ofValue (.number n)) = some n := number?_toString n
    rw [hnumber, liftM_some, pure_bind, guard, if_pos (show n < 1 <<< bits from hf)]
    rfl
  | choice names =>
    cases v <;> try exact hf.elim
    rename_i t
    rw [h.of_text, decode, follow_ofValue, pure_bind]
    have hname : choiceName? (ofValue (.text t)) = some t := rfl
    rw [hname, liftM_some, pure_bind, guard, if_pos (List.contains_iff_mem.mpr hf)]
    rfl
  | list item ih =>
    cases v <;> try exact hf.elim
    rename_i vs
    obtain ⟨ws, rfl, hitems⟩ := h.of_list hf
    have hread : (ofValues ws).toList.mapM (decode anchors item) = pure vs :=
      mapM_ofValues (hitems.imp fun v w hvw => ih hd hvw.1 hvw.2)
    rw [decode, follow_ofValue, pure_bind]
    have hlist : itemsOf? (ofValue (.list ws)) = some (ofValues ws).toList := rfl
    rw [hlist, liftM_some, pure_bind, hread, pure_bind]
  | record name fields ih =>
    cases v <;> try exact hf.elim
    obtain ⟨hn, hd⟩ := Bool.and_eq_true_iff.mp hd
    obtain ⟨ws, rfl, hfields⟩ := h.of_record hf
    obtain ⟨xs, hkeeps, hnodup, hcomplete⟩ := hfields.exists_kept (of_decide_eq_true hn) hf
    have hread : (ofFields ws).toList.foldlM (collect anchors fields) [] =
        pure (xs.reverse ++ []) := by
      refine foldlM_ofFields (hkeeps.imp fun x y hxy => ?_) hnodup fun _ _ => rfl
      obtain ⟨p, s, hfind, hplace, habr⟩ := hxy.found
      refine ⟨hxy.name_eq, decodeField_ofValue hfind hplace habr fun hfits => ?_⟩
      exact ih _ p s hfind (Fields.distinct_of_find? hd hfind) hfits habr
    have hentries : entriesOf? (ofValue (.record ws)) = some (ofFields ws).toList := rfl
    rw [decode, follow_ofValue, pure_bind, hentries, liftM_some, pure_bind]
    change (ofFields ws).toList.foldlM (collect anchors fields) [] >>= _ = _
    rw [hread, pure_bind, List.append_nil, hcomplete]

end Reading

end Yaml
end ArrayImage
