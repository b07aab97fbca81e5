import ArrayImage.Json.Decode
import ArrayImage.Proofs.Abridgement

/-!
# ArrayImage.Proofs.Documents

A document with fields left out stands for the whole data.

`decode_ofValue` reads back what was written, by induction on the shape: items of lists and entries
of records are read one after the other, and entries that are not there are completed.
-/

namespace ArrayImage
namespace Json

variable {s : Shape} {v w : Value}

theorem isMissing_ofValue (p : Presence) (w : Value) :
    isMissing p (ofValue w) = true ↔ p.IsMissing w := by
  unfold Presence.IsMissing
  cases p <;> cases w <;> simp [isMissing, ofValue]

def decodeField (p : Presence) (s : Shape) (d : Document) : Except ReadError Value :=
  if isMissing p d then .ok .null else decode d s

theorem decodeField_ofValue {p : Presence} (hplace : p.IsMissing v ∨ s.Fits v)
    (h : s.Abridges v w) (hread : s.Fits v → decode (ofValue w) s = .ok v) :
    decodeField p s (ofValue w) = .ok v := by
  unfold decodeField
  rcases hplace with ⟨hp, rfl⟩ | hfits
  · rw [if_pos ((isMissing_ofValue p w).mpr ⟨hp, h.eq_null⟩)]
  · rw [if_neg, hread hfits]
    rw [isMissing_ofValue]
    exact fun hm => h.ne_null hfits.ne_null hm.2

theorem decodeItems_ofValues {vs ws : List Value}
    (h : List.Forall₂ (fun v w => decode (ofValue w) s = .ok v) vs ws) :
    decodeItems s (ofValues ws) = .ok vs := by
  induction h with
  | nil => rw [ofValues, decodeItems]
  | cons hv _ ih =>
    rw [ofValues, decodeItems, hv, ih]
    rfl

theorem decodeEntries_entry {fields : Fields} {found : List (String × Value)} {name : String}
    {p : Presence} (hfind : fields.find? name = some (p, s)) (hnew : found.lookup name = none)
    (d : Document) (rest : Entries) :
    decodeEntries fields found (.entry (some name) d rest) =
      decodeField p s d >>= fun value => decodeEntries fields ((name, value) :: found) rest := by
  rw [decodeEntries, hfind, decodeField]
  simp only [hnew, Option.isSome_none, Bool.false_eq_true, if_false]
  split <;> rfl

/-- The entries of a record are collected, last to first, and completed at the end. -/
theorem decodeEntries_ofFields {fields : Fields} {xs ws found vs : List (String × Value)}
    (h : List.Forall₂ (fun x y => x.1 = y.1 ∧ ∃ p s, fields.find? x.1 = some (p, s) ∧
      decodeField p s (ofValue y.2) = .ok x.2) xs ws)
    (hn : (xs.map Prod.fst).Nodup) (hnew : ∀ x ∈ xs, found.lookup x.1 = none)
    (hc : fields.complete (xs.reverse ++ found) = .ok vs) :
    decodeEntries fields found (ofFields ws) = .ok vs := by
  induction h generalizing found with
  | nil =>
    rw [ofFields, decodeEntries]
    rw [List.reverse_nil, List.nil_append] at hc
    rw [hc]
  | @cons x y xs ws hxy hrest ih =>
    obtain ⟨name, v⟩ := x
    obtain ⟨name', w⟩ := y
    obtain ⟨rfl, p, s, hfind, hread⟩ := hxy
    obtain ⟨hname, hn⟩ := List.nodup_cons.mp hn
    obtain ⟨hnone, hnew⟩ := List.forall_mem_cons.mp hnew
    have hnext : decodeEntries fields ((name, v) :: found) (ofFields ws) = .ok vs := by
      refine ih hn (lookup_cons_eq_none v hname hnew) ?_
      rwa [List.reverse_cons, List.append_assoc] at hc
    rw [ofFields, decodeEntries_entry hfind hnone, hread]
    exact hnext

/-- Data that fits its shape is read back from its document, whichever fields were left out. -/
theorem decode_ofValue (hd : s.distinct = true) (hf : s.Fits v) (h : s.Abridges v w) :
    decode (ofValue w) s = .ok v := by
  induction s using Shape.induction generalizing v w with
  | text =>
    cases v <;> try exact hf.elim
    rw [h.of_text]
    rfl
  | number bits =>
    cases v <;> try exact hf.elim
    rename_i n
    rw [h.of_number, ofValue, decode, decodeNumber,
      if_pos ⟨Int.natCast_nonneg n, Int.ofNat_lt.mpr hf⟩]
    rfl
  | choice names =>
    cases v <;> try exact hf.elim
    rw [h.of_text, ofValue, decode, decodeChoice, decodeName,
      if_pos (List.contains_iff_mem.mpr hf)]
  | list item ih =>
    cases v <;> try exact hf.elim
    obtain ⟨ws, rfl, hitems⟩ := h.of_list hf
    rw [ofValue, decode, decodeItems_ofValues (hitems.imp fun v w hvw => ih hd hvw.1 hvw.2)]
    rfl
  | record name fields ih =>
    cases v <;> try exact hf.elim
    rename_i vs
    obtain ⟨hn, hd⟩ := Bool.and_eq_true_iff.mp hd
    obtain ⟨ws, rfl, hfields⟩ := h.of_record hf
    obtain ⟨xs, hkeeps, hnodup, hcomplete⟩ := hfields.exists_kept (of_decide_eq_true hn) hf
    have hread : decodeEntries fields [] (ofFields ws) = .ok vs := by
      refine decodeEntries_ofFields (hkeeps.imp fun x y hxy => ?_) hnodup (fun _ _ => rfl) ?_
      · obtain ⟨p, s, hfind, hplace, habr⟩ := hxy.found
        refine ⟨hxy.name_eq, p, s, hfind, decodeField_ofValue hplace habr fun hfits => ?_⟩
        exact ih _ p s hfind (Fields.distinct_of_find? hd hfind) hfits habr
      · rwa [List.append_nil]
    rw [ofValue, decode, hread]
    rfl

end Json
end ArrayImage
