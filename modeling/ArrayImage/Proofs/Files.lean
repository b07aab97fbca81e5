import ArrayImage.FileTree
import ArrayImage.Path

/-!
# ArrayImage.Proofs.Files

Paths and the files at them.

The directory of a file is what stands before its name (`Path.Parent.directory_eq`), and a name that
is not absolute is looked up in its directory (`Path.join_relative`). What was written at a path is
read there again, byte for byte, unless a device stands there (`FileTree.read_write`).
-/

namespace ArrayImage

namespace Path

/-! ## Names and directories -/

/-- A name that a path can end with. A lone dot at the end of a path is left out. -/
structure IsName (name : String) : Prop where
  ne_empty : name ≠ ""
  ne_dot : name ≠ "."
  noSlash : '/' ∉ name.toList

def IsTrimmed (path : String) : Prop :=
  trimEnd path.toList.reverse = path.toList.reverse

theorem IsName.toList_ne_nil {name : String} (h : IsName name) : name.toList.reverse ≠ [] := by
  intro hr
  refine h.ne_empty ?_
  rw [← String.toList_inj, List.reverse_eq_nil_iff.mp hr]
  rfl

theorem IsName.trimEnd_append {name : String} (h : IsName name) (rest : List Char) :
    trimEnd (name.toList.reverse ++ rest) = name.toList.reverse ++ rest := by
  have hslash : '/' ∉ name.toList.reverse := fun hm => h.noSlash (List.mem_reverse.mp hm)
  cases hr : name.toList.reverse with
  | nil => exact absurd hr h.toList_ne_nil
  | cons c cs =>
    rw [hr] at hslash
    have hc : c ≠ '/' := fun he => hslash (he ▸ List.mem_cons_self)
    have hdot : c = '.' → cs ≠ [] := by
      rintro rfl rfl
      refine h.ne_dot ?_
      rw [← String.toList_inj, ← List.reverse_reverse name.toList, hr]
      rfl
    have hdot' : ∀ more, c = '.' → cs ++ rest ≠ '/' :: more := by
      intro more hd he
      cases cs with
      | nil => exact hdot hd rfl
      | cons d ds =>
        obtain ⟨rfl, -⟩ := List.cons.inj he
        exact hslash (List.mem_cons_of_mem _ List.mem_cons_self)
    rw [List.cons_append, trimEnd.eq_6 c (cs ++ rest) (fun he _ => hc he)
      (fun hd he => hdot hd (List.append_eq_nil_iff.mp he).1) hc hdot']

theorem IsName.dropWhile_append {name : String} (h : IsName name) (rest : List Char) :
    (name.toList.reverse ++ rest).dropWhile (· != '/') = rest.dropWhile (· != '/') := by
  refine List.dropWhile_append_of_pos fun c hc => bne_iff_ne.mpr fun he => h.noSlash ?_
  exact he ▸ List.mem_reverse.mp hc

/-- The parent of a path that ends with a name is all that stands before the name. -/
theorem parent?_eq {path name : String} {rest : List Char} (h : IsName name)
    (hpath : path.toList.reverse = name.toList.reverse ++ rest) :
    parent? path = some (String.ofList (trimEnd (rest.dropWhile (· != '/'))).reverse) := by
  have hne := h.toList_ne_nil
  have hslash : '/' ∉ name.toList.reverse := fun hm => h.noSlash (List.mem_reverse.mp hm)
  unfold parent?
  rw [hpath, h.trimEnd_append]
  split
  · rename_i hnil
    exact absurd (List.append_eq_nil_iff.mp hnil).1 hne
  · rename_i hroot
    cases hr : name.toList.reverse with
    | nil => exact absurd hr hne
    | cons c cs =>
      rw [hr] at hroot hslash
      exact absurd (List.mem_cons_self) ((List.cons.inj hroot).1 ▸ hslash)
  · rw [h.dropWhile_append]

/-- A bare name is in the working directory. -/
theorem directory_name {name : String} (h : IsName name) : directory name = "." := by
  have hpath : name.toList.reverse = name.toList.reverse ++ [] := (List.append_nil _).symm
  rw [directory, parent?_eq h hpath]
  rfl

/-- The directory of a file is what stands before its name. -/
theorem directory_join {dir name : String} (hdir : dir ≠ "") (ht : IsTrimmed dir)
    (h : IsName name) : directory (dir ++ "/" ++ name) = dir := by
  have hpath : (dir ++ "/" ++ name).toList.reverse =
      name.toList.reverse ++ '/' :: dir.toList.reverse := by
    rw [String.toList_append, String.toList_append, List.reverse_append, List.reverse_append]
    rfl
  have hne : dir.toList.reverse ≠ [] := by
    intro hr
    refine hdir ?_
    rw [← String.toList_inj, List.reverse_eq_nil_iff.mp hr]
    rfl
  have hdrop : ('/' :: dir.toList.reverse).dropWhile (· != '/') = '/' :: dir.toList.reverse := rfl
  have hparent : parent? (dir ++ "/" ++ name) = some dir := by
    rw [parent?_eq h hpath, hdrop, trimEnd.eq_4 _ hne, ht, List.reverse_reverse,
      String.ofList_toList]
  unfold directory
  rw [hparent]
  split
  · rename_i hnone
    cases hnone
  · rename_i hempty
    exact absurd (Option.some.inj hempty) hdir
  · rename_i hsome
    exact (Option.some.inj hsome).symm

theorem directory_root {name : String} (h : IsName name) : directory ("/" ++ name) = "/" := by
  have hpath : ("/" ++ name).toList.reverse = name.toList.reverse ++ ['/'] := by
    rw [String.toList_append, List.reverse_append]
    rfl
  rw [directory, parent?_eq h hpath]
  rfl

/-- The directory that a file is in, as its path says. -/
inductive Parent : String → String → Prop where
  | bare {name : String} (isName : IsName name) : Parent name "."
  | root {name : String} (isName : IsName name) : Parent ("/" ++ name) "/"
  | below {dir name : String} (ne_empty : dir ≠ "") (trimmed : IsTrimmed dir)
    (isName : IsName name) : Parent (dir ++ "/" ++ name) dir

theorem Parent.directory_eq {path dir : String} (h : Parent path dir) : directory path = dir := by
  cases h with
  | bare isName => exact directory_name isName
  | root isName => exact directory_root isName
  | below ne_empty trimmed isName => exact directory_join ne_empty trimmed isName

theorem directory_ne_empty (path : String) : directory path ≠ "" := by
  unfold directory
  split
  · decide
  · decide
  · assumption

/-- A name that is not absolute is looked up in the directory. -/
theorem join_relative {dir name : String} (hdir : dir ≠ "") (h : isAbsolute name = false) :
    join dir name = (if dir.toList.getLast? = some '/' then dir else dir ++ "/") ++ name := by
  rw [join, h, if_neg Bool.false_ne_true]
  split
  · rename_i hnone
    refine absurd ?_ hdir
    rw [← String.toList_inj, List.getLast?_eq_none_iff.mp hnone]
    rfl
  · rename_i hslash
    rw [if_pos hslash]
  · rename_i c hc hlast
    rw [hlast, if_neg fun he => hc (Option.some.inj he)]

end Path

namespace FileTree

/-! ## Reading what was written -/

/-- Where a path leads depends on directories only. -/
theorem enter_eq_ok {t t' : FileTree} (h : t'.directories = t.directories) {here place : Place}
    {parts : List String} (he : t.enter here parts = .ok place) :
    t'.enter here parts = .ok place := by
  have hdir : ∀ p, t'.isDirectory p = t.isDirectory p := fun p => by
    rw [isDirectory, isDirectory, h]
  induction parts generalizing here with
  | nil => exact he
  | cons part rest ih =>
    rw [enter] at he ⊢
    cases hn : next here part with
    | error e =>
      rw [hn] at he
      cases he
    | ok p =>
      simp only [hn, bind, Except.bind, hdir] at he ⊢
      by_cases hp : t.isDirectory p
      · rw [if_pos hp] at he ⊢
        exact ih he
      · rw [if_neg hp] at he
        cases he

/-- A path that can be written has no slash at its end: it leads to a directory, and there its last
part is a name. -/
theorem target_eq_ok {t : FileTree} {path : String} {place : Place}
    (h : t.target path = .ok place) : ∃ all here parts directory, parts? path = .ok all ∧
      start all = (here, parts) ∧ t.enter here parts.dropLast = .ok directory ∧
      next directory (parts.getLastD "") = .ok place := by
  unfold target at h
  cases hall : parts? path with
  | error e =>
    rw [hall] at h
    cases h
  | ok all =>
    obtain ⟨here, parts, hstart⟩ : ∃ here parts, start all = (here, parts) := ⟨_, _, rfl⟩
    simp only [hall, hstart, bind, Except.bind] at h
    have hsuffix := List.dropWhile_suffix (fun part => decide (part = "")) (l := parts.reverse)
    generalize parts.reverse.dropWhile (fun part => decide (part = "")) = named at h hsuffix
    cases henter : t.enter here named.reverse.dropLast with
    | error e =>
      rw [henter] at h
      cases h
    | ok directory =>
      simp only [henter] at h
      by_cases hname :
          named.reverse.length < parts.length ∨ isStep (named.reverse.getLastD "") = true
      · simp only [if_pos hname] at h
        cases h
      · simp only [if_neg hname] at h
        have hnamed : named.reverse = parts := by
          rw [hsuffix.eq_of_length_le, List.reverse_reverse]
          rw [List.length_reverse] at hname ⊢
          omega
        rw [hnamed] at h henter
        cases hnext : next directory (parts.getLastD "") with
        | error e =>
          rw [hnext] at h
          cases h
        | ok p =>
          simp only [hnext] at h
          by_cases hp : t.isDirectory p
          · rw [if_pos hp] at h
            cases h
          · rw [if_neg hp] at h
            cases h
            exact ⟨all, here, parts, directory, rfl, hstart, henter, hnext⟩

/-- What was written is read again, unless a device stands there. -/
theorem read_write {t : FileTree} {path : String} {place : Place} (h : t.target path = .ok place)
    (hdev : place ∉ Place.standardDevices) (bytes : List UInt8) :
    (t.write path bytes).read path = .ok bytes := by
  obtain ⟨all, here, parts, directory, hall, hstart, henter, hnext⟩ := target_eq_ok h
  have hwrite : t.write path bytes = { t with files := (place, bytes) :: t.files } := by
    rw [write, h]
    exact if_neg fun hc => hdev (List.contains_iff_mem.mp hc)
  have henter' : ({ t with files := (place, bytes) :: t.files } : FileTree).enter here
      parts.dropLast = .ok directory := by
    refine enter_eq_ok (t := t) ?_ henter
    rfl
  have hlookup : ((place, bytes) :: t.files).lookup place = some bytes := by
    rw [List.lookup_cons, beq_self_eq_true]
  rw [hwrite, read]
  simp only [hall, hstart, henter', hnext, hlookup, bind, Except.bind]
  rfl

end FileTree
end ArrayImage
