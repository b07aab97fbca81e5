import ArrayImage.Proofs.Lists
import ArrayImage.Schema.Shape
import Mathlib.Data.List.Forall2
import Mathlib.Data.List.Nodup

/-!
# ArrayImage.Proofs.Abridgement

Data with fields left out.

`Shape.Abridges s v w` says that `w` is `v` without some of the fields, at any depth, that hold just
what they stand for when they are left out. A reader of records collects the fields that it finds
and completes them, so what it needs to know is the same for every syntax
(`Fields.Abridge.exists_kept`): each field that is there can be found by its name, and the fields
that are there complete to all of the record.
-/

namespace ArrayImage

/-! ## Fitting data -/

/-- A null where a field may be null. -/
def Presence.IsMissing (p : Presence) (v : Value) : Prop :=
  p = .optional ∧ v = .null

mutual

def Shape.Fits : Shape → Value → Prop
  | .text, .text _ => True
  | .number bits, .number n => n < 1 <<< bits
  | .choice names, .text s => s ∈ names
  | .list item, .list vs => ∀ v ∈ vs, item.Fits v
  | .record _ fields, .record vs => fields.Fit vs
  | _, _ => False

/-- The values have the names and the shapes of these fields, in their order. -/
def Fields.Fit : Fields → List (String × Value) → Prop
  | .done, [] => True
  | .field name presence shape rest, (n, v) :: vs =>
    n = name ∧ (presence.IsMissing v ∨ shape.Fits v) ∧ rest.Fit vs
  | _, _ => False

end

@[simp]
theorem Shape.fits_record {name : String} {fields : Fields} {vs : List (String × Value)} :
    (Shape.record name fields).Fits (.record vs) ↔ fields.Fit vs :=
  Iff.rfl

namespace Fields

@[simp]
theorem fit_nil : (ofList []).Fit [] :=
  trivial

@[simp]
theorem fit_cons {name : String} {presence : Presence} {shape : Shape} {v : Value}
    {rest : List (String × Presence × Shape)} {vs : List (String × Value)} :
    (ofList ((name, presence, shape) :: rest)).Fit ((name, v) :: vs) ↔
      (presence.IsMissing v ∨ shape.Fits v) ∧ (ofList rest).Fit vs :=
  and_iff_right rfl

def names : Fields → List String
  | done => []
  | field name _ _ rest => name :: rest.names

theorem find?_eq_none {fields : Fields} {name : String} (h : name ∉ fields.names) :
    fields.find? name = none := by
  fun_induction names fields with
  | case1 => rfl
  | case2 n presence shape rest ih =>
    rw [List.mem_cons, not_or] at h
    rw [find?, if_neg (Ne.symm h.1), ih h.2]

end Fields

mutual

/-- No record has two fields of one name. -/
def Shape.distinct : Shape → Bool
  | .text | .number _ | .choice _ => true
  | .list item => item.distinct
  | .record _ fields => decide fields.names.Nodup && fields.distinct

def Fields.distinct : Fields → Bool
  | .done => true
  | .field _ _ shape rest => shape.distinct && rest.distinct

end

theorem Fields.distinct_of_find? {fields : Fields} {name : String} {p : Presence} {s : Shape}
    (hd : fields.distinct = true) (h : fields.find? name = some (p, s)) : s.distinct = true := by
  fun_induction names fields with
  | case1 => cases h
  | case2 n presence shape rest ih =>
    rw [distinct, Bool.and_eq_true] at hd
    rw [find?] at h
    split at h
    · cases h
      exact hd.1
    · exact ih hd.2 h

/-! ## Induction on shapes -/

/-- What holds of a record when it holds of its fields, and of a list when it holds of its items,
holds of all shapes. -/
theorem Shape.induction {P : Shape → Prop} (text : P .text) (number : ∀ bits, P (.number bits))
    (choice : ∀ names, P (.choice names)) (list : ∀ item, P item → P (.list item))
    (record : ∀ name fields,
      (∀ n p s, Fields.find? n fields = some (p, s) → P s) → P (.record name fields))
    (s : Shape) : P s := by
  refine @Shape.rec P (fun fields => ∀ n p s, fields.find? n = some (p, s) → P s) text number
    choice list record ?done ?field s
  case done =>
    intro n p s h
    cases h
  case field =>
    intro name presence shape rest hshape hrest n p s h
    rw [Fields.find?] at h
    split at h
    · cases h
      exact hshape
    · exact hrest n p s h

/-! ## Leaving fields out -/

mutual

/-- The second value is the first one with some fields left out. -/
inductive Shape.Abridges : Shape → Value → Value → Prop where
  | same {s : Shape} {v : Value} : Shape.Abridges s v v
  | list {item : Shape} {vs ws : List Value} (length_eq : vs.length = ws.length)
    (items : ∀ v w, (v, w) ∈ vs.zip ws → Shape.Abridges item v w) :
    Shape.Abridges (.list item) (.list vs) (.list ws)
  | record {name : String} {fields : Fields} {vs ws : List (String × Value)}
    (others : Fields.Abridge fields vs ws) :
    Shape.Abridges (.record name fields) (.record vs) (.record ws)

/-- The second list has those fields of the first one that are not left out. A field can be left out
when it holds what it stands for then. -/
inductive Fields.Abridge : Fields → List (String × Value) → List (String × Value) → Prop where
  | done : Fields.Abridge .done [] []
  | kept {name : String} {presence : Presence} {shape : Shape} {rest : Fields} {v w : Value}
    {vs ws : List (String × Value)} (value : Shape.Abridges shape v w)
    (others : Fields.Abridge rest vs ws) :
    Fields.Abridge (.field name presence shape rest) ((name, v) :: vs) ((name, w) :: ws)
  | leftOut {name : String} {presence : Presence} {shape : Shape} {rest : Fields} {v : Value}
    {vs ws : List (String × Value)} (missing : presence.missing? = some v)
    (others : Fields.Abridge rest vs ws) :
    Fields.Abridge (.field name presence shape rest) ((name, v) :: vs) ws

end

namespace Shape

variable {s : Shape} {v w : Value}

theorem Fits.ne_null (h : s.Fits v) : v ≠ .null := by
  rintro rfl
  cases s <;> simp [Fits] at h

theorem Abridges.eq_null (h : s.Abridges .null w) : w = .null := by
  cases h
  rfl

theorem Abridges.ne_null (h : s.Abridges v w) (hv : v ≠ .null) : w ≠ .null := by
  cases h with
  | same => exact hv
  | list => nofun
  | record => nofun

theorem Abridges.of_text {t : String} (h : s.Abridges (.text t) w) : w = .text t := by
  cases h
  rfl

theorem Abridges.of_number {n : Nat} (h : s.Abridges (.number n) w) : w = .number n := by
  cases h
  rfl

theorem Abridges.of_forall₂ {item : Shape} {vs ws : List Value}
    (h : List.Forall₂ item.Abridges vs ws) : Shape.Abridges (.list item) (.list vs) (.list ws) :=
  .list h.length_eq fun _ _ => (List.forall₂_iff_zip.mp h).2

theorem Abridges.of_list {item : Shape} {vs : List Value}
    (h : Shape.Abridges (.list item) (.list vs) w) (hf : ∀ v ∈ vs, item.Fits v) :
    ∃ ws, w = .list ws ∧ List.Forall₂ (fun v w => item.Fits v ∧ item.Abridges v w) vs ws := by
  cases h with
  | same => exact ⟨vs, rfl, List.forall₂_same.mpr fun v hv => ⟨hf v hv, .same⟩⟩
  | @list _ _ ws length_eq items =>
    refine ⟨ws, rfl, List.forall₂_iff_zip.mpr ⟨length_eq, fun hvw => ?_⟩⟩
    exact ⟨hf _ (List.of_mem_zip hvw).1, items _ _ hvw⟩

end Shape

namespace Fields

/-- Nothing need be left out. -/
theorem abridge_self {fields : Fields} {vs : List (String × Value)} (h : fields.Fit vs) :
    fields.Abridge vs vs := by
  fun_induction names fields generalizing vs with
  | case1 =>
    cases vs with
    | nil => exact .done
    | cons x vs => simp [Fit] at h
  | case2 name presence shape rest ih =>
    cases vs with
    | nil => simp [Fit] at h
    | cons x vs =>
      obtain ⟨n, v⟩ := x
      obtain ⟨rfl, -, hrest⟩ := h
      exact .kept .same (ih hrest)

end Fields

theorem Shape.Abridges.of_record {name : String} {fields : Fields} {vs : List (String × Value)}
    {w : Value} (h : Shape.Abridges (.record name fields) (.record vs) w) (hf : fields.Fit vs) :
    ∃ ws, w = .record ws ∧ fields.Abridge vs ws := by
  cases h with
  | same => exact ⟨vs, rfl, Fields.abridge_self hf⟩
  | @record _ _ _ ws others => exact ⟨ws, rfl, others⟩

/-! ## Reading fields -/

theorem lookup_of_notMem {l : List (String × Value)} {name : String}
    (h : name ∉ l.map Prod.fst) : l.lookup name = none := by
  rw [List.lookup_eq_none_iff]
  intro x hx
  rw [bne_iff_ne]
  rintro rfl
  exact h (List.mem_map_of_mem hx)

/-- Where no name comes twice, it does not matter from which end one looks. -/
theorem lookup_reverse {l : List (String × Value)} (h : (l.map Prod.fst).Nodup) (name : String) :
    l.reverse.lookup name = l.lookup name := by
  induction l with
  | nil => rfl
  | cons x l ih =>
    rw [List.map_cons, List.nodup_cons] at h
    rw [List.reverse_cons, List.lookup_append, ih h.2, List.lookup_cons, List.lookup_cons]
    by_cases hx : name = x.1
    · rw [hx, lookup_of_notMem h.1]
      simp
    · rw [beq_false_of_ne hx]
      exact Option.or_none

/-- Finding one more value leaves the other names as new as they were. -/
theorem lookup_cons_eq_none {found xs : List (String × Value)} {name : String} (v : Value)
    (hname : name ∉ xs.map Prod.fst) (hnew : ∀ x ∈ xs, found.lookup x.1 = none) :
    ∀ x ∈ xs, ((name, v) :: found).lookup x.1 = none := by
  intro x hx
  have hne : x.1 ≠ name := by
    rintro rfl
    exact hname (List.mem_map_of_mem hx)
  rw [List.lookup_cons, beq_false_of_ne hne]
  exact hnew x hx

/-- A field of a record, and what stands for its value. -/
structure Fields.Keeps (fields : Fields) (x y : String × Value) : Prop where
  name_eq : x.1 = y.1
  found : ∃ p s, fields.find? x.1 = some (p, s) ∧ (p.IsMissing x.2 ∨ s.Fits x.2) ∧
    s.Abridges x.2 y.2

namespace Fields

section Rest

variable {rest : Fields} {name : String} {presence : Presence} {shape : Shape}

theorem Keeps.later {x y : String × Value} (h : rest.Keeps x y) (hname : name ∉ rest.names) :
    (field name presence shape rest).Keeps x y where
  name_eq := h.name_eq
  found := by
    obtain ⟨p, s, hfind, hs⟩ := h.found
    refine ⟨p, s, ?_, hs⟩
    have hne : name ≠ x.1 := by
      rintro rfl
      rw [find?_eq_none hname] at hfind
      cases hfind
    rw [find?, if_neg hne, hfind]

theorem complete_field {found vs : List (String × Value)} {v : Value}
    (hv : (found.lookup name).or presence.missing? = some v)
    (hrest : rest.complete found = .ok vs) :
    (field name presence shape rest).complete found = .ok ((name, v) :: vs) := by
  rw [complete, hv, hrest]
  rfl

end Rest

/-- The fields that are kept complete to all fields, as does everything with the same look-ups. -/
theorem Abridge.exists_complete {fields : Fields} {vs ws : List (String × Value)}
    (h : fields.Abridge vs ws) (hn : fields.names.Nodup) (hf : fields.Fit vs) :
    ∃ xs, List.Forall₂ fields.Keeps xs ws ∧ (xs.map Prod.fst).Sublist fields.names ∧
      ∀ found : List (String × Value),
        (∀ name ∈ fields.names, found.lookup name = xs.lookup name) →
        fields.complete found = .ok vs := by
  fun_induction names fields generalizing vs ws with
  | case1 =>
    cases h
    exact ⟨[], .nil, List.Sublist.refl _, fun _ _ => rfl⟩
  | case2 name presence shape rest ih =>
    obtain ⟨hname, hrest⟩ := List.nodup_cons.mp hn
    cases h with
    | @kept _ _ _ _ v w vs ws value others =>
      obtain ⟨-, hplace, hfit⟩ := hf
      obtain ⟨xs, hkeeps, hsub, hcomplete⟩ := ih others hrest hfit
      refine ⟨(name, v) :: xs, .cons ?_ ?_, hsub.cons_cons name, fun found hfound => ?_⟩
      · exact ⟨rfl, presence, shape, if_pos rfl, hplace, value⟩
      · exact hkeeps.imp fun _ _ hx => hx.later hname
      · refine complete_field ?_ (hcomplete found fun n hn => ?_)
        · rw [hfound name List.mem_cons_self, List.lookup_cons_self]
          rfl
        · have hne : n ≠ name := fun he => hname (he ▸ hn)
          rw [hfound n (List.mem_cons_of_mem _ hn), List.lookup_cons, beq_false_of_ne hne]
    | leftOut missing others =>
      obtain ⟨-, -, hfit⟩ := hf
      obtain ⟨xs, hkeeps, hsub, hcomplete⟩ := ih others hrest hfit
      refine ⟨xs, hkeeps.imp fun _ _ hx => hx.later hname, hsub.cons name, fun found hfound => ?_⟩
      refine complete_field ?_ (hcomplete found fun n hn => ?_)
      · have hnone : xs.lookup name = none := lookup_of_notMem fun hm => hname (hsub.subset hm)
        rw [hfound name List.mem_cons_self, hnone, Option.none_or, missing]
      · exact hfound n (List.mem_cons_of_mem _ hn)

/-- What a reader needs to know: the fields that are there have different names and stand for fields
of the record, and with these found, last to first, the record is complete. -/
theorem Abridge.exists_kept {fields : Fields} {vs ws : List (String × Value)}
    (h : fields.Abridge vs ws) (hn : fields.names.Nodup) (hf : fields.Fit vs) :
    ∃ xs, List.Forall₂ fields.Keeps xs ws ∧ (xs.map Prod.fst).Nodup ∧
      fields.complete xs.reverse = .ok vs := by
  obtain ⟨xs, hkeeps, hsub, hcomplete⟩ := h.exists_complete hn hf
  have hnodup := hn.sublist hsub
  exact ⟨xs, hkeeps, hnodup, hcomplete _ fun name _ => lookup_reverse hnodup name⟩

end Fields

/-! ## What may be left out -/

mutual

/-- The fields that can be left out, each with the type of its record and with what it stands for
then. -/
def Shape.defaults : Shape → List (String × String × Value)
  | .text | .number _ | .choice _ => []
  | .list item => item.defaults
  | .record name fields => fields.defaults name

def Fields.defaults (record : String) : Fields → List (String × String × Value)
  | .done => []
  | .field name presence shape rest =>
    (presence.missing?.toList.map fun v => (record, name, v)) ++ shape.defaults ++
      rest.defaults record

end

end ArrayImage
