import ArrayImage.Proofs.Containment
import ArrayImage.Proofs.Container
import ArrayImage.Proofs.Grouping
import ArrayImage.Proofs.Preconditions
import ArrayImage.Proofs.Skeleton

/-!
# ArrayImage.Proofs.Alignment

Sections that do not overlap.

Entries of a log are grouped by comparing addresses for exactly four apart, so sections are apart
from each other as long as all addresses are multiples of four. What the phases write on their own
is, and a segment of a program is wherever its file says: all addresses are aligned exactly when the
segments of all programs are (`compile_apart`).
-/

namespace ArrayImage

/-! ## Aligned addresses -/

theorem TileId.address_mod_four (t : TileId) (o : Nat) : t.address o % 4 = o % 4 := by
  rw [address, windowSize_eq]
  omega

theorem TileKind.mod_four_of_mem_words (k : TileKind) {r : Region} (hr : r ∈ k.resetRegions)
    {o : Nat} (ho : o ∈ r.words) : o % 4 = 0 := by
  obtain ⟨hb, -, -⟩ := k.resetRegions_bounds r hr
  obtain ⟨i, -, rfl⟩ := Region.mem_words.mp ho
  omega

/-- The words of a segment are aligned as its address is. -/
theorem Segment.Places.mod_four {s : Segment} {o : Nat} (h : s.Places o) :
    o % 4 = s.address.toNat % 4 := by
  obtain ⟨dest, hd, i, -, rfl⟩ := h
  rw [destination_eq hd, memory, start]
  split <;> simp only [RegisterMap.programMemory, RegisterMap.dataMemory] <;> omega

/-! ## Sections -/

namespace Section

def byteAt? (b : Nat) (s : Section) : Option UInt8 :=
  if s.address ≤ b then (Container.sectionBytes s)[b - s.address]? else none

/-- Each section ends before the next one begins, so no byte is given twice. -/
structure Apart (sections : List Section) : Prop where
  spaced : Region.Spaced (sections.map region)
  bytes : ∀ b, (sections.filterMap (byteAt? b)).length ≤ 1

theorem bounds_of_byteAt? {s : Section} {b : Nat} (h : (s.byteAt? b).isSome) :
    s.address ≤ b ∧ b < s.address + s.byteSize := by
  unfold byteAt? at h
  split at h
  · obtain ⟨v, hv⟩ := Option.isSome_iff_exists.mp h
    have hlt := (List.getElem?_eq_some_iff.mp hv).1
    rw [Container.length_sectionBytes] at hlt
    omega
  · cases h

theorem length_filterMap_le_one {α β : Type} {f : α → Option β} {l : List α}
    (h : l.Pairwise fun x y => (f x).isSome → f y = none) : (l.filterMap f).length ≤ 1 := by
  induction l with
  | nil => simp
  | cons x l ih =>
    obtain ⟨hx, hl⟩ := List.pairwise_cons.mp h
    rw [List.filterMap_cons]
    cases hfx : f x with
    | none => exact ih hl
    | some y =>
      have hnone : l.filterMap f = [] :=
        List.filterMap_eq_nil_iff.mpr fun z hz => hx z hz (by rw [hfx]; rfl)
      simp [hnone]

theorem apart_of_spaced {sections : List Section} (h : Region.Spaced (sections.map region)) :
    Apart sections := by
  refine ⟨h, fun b => length_filterMap_le_one ?_⟩
  refine (List.pairwise_map.mp h).imp fun {s t} hst hs => ?_
  have hsb := bounds_of_byteAt? hs
  rw [← Option.not_isSome_iff_eq_none]
  intro ht
  have htb := bounds_of_byteAt? ht
  simp only [region] at hst
  omega

theorem isSome_byteAt? {s : Section} {b : Nat} (hle : s.address ≤ b)
    (hlt : b < s.address + s.byteSize) : (s.byteAt? b).isSome := by
  have hb : b - s.address < (Container.sectionBytes s).length := by
    rw [Container.length_sectionBytes]
    omega
  rw [byteAt?, if_pos hle, List.getElem?_eq_getElem hb]
  rfl

/-- Two words that overlap are never in one section. -/
theorem exists_overlap {sections : List Section} {x y : Nat × Word} (hx : x ∈ expand sections)
    (hy : y ∈ expand sections) (hlt : x.1 < y.1) (hover : y.1 < x.1 + 4) :
    ∃ s ∈ sections, ∃ t ∈ sections, s ≠ t ∧ (s.byteAt? y.1).isSome ∧ (t.byteAt? y.1).isSome := by
  obtain ⟨s, hs, hxs⟩ := List.mem_flatMap.mp hx
  obtain ⟨t, ht, hyt⟩ := List.mem_flatMap.mp hy
  obtain ⟨i, hi, rfl⟩ := List.mem_mapIdx.mp hxs
  obtain ⟨j, hj, rfl⟩ := List.mem_mapIdx.mp hyt
  simp only at hlt hover ⊢
  have hsize : s.byteSize = 4 * s.data.length := rfl
  have htsize : t.byteSize = 4 * t.data.length := rfl
  refine ⟨s, hs, t, ht, ?_, ?_, ?_⟩
  · rintro rfl
    omega
  · exact isSome_byteAt? (by omega) (by omega)
  · exact isSome_byteAt? (by omega) (by omega)

/-- In ascending order, aligned entries are at least one word apart. -/
theorem pairwise_of_aligned {es : List (Nat × Word)} (hasc : es.Pairwise (·.1 < ·.1))
    (h4 : ∀ e ∈ es, e.1 % 4 = 0) : es.Pairwise fun x y => x.1 + 4 ≤ y.1 := by
  refine hasc.imp_of_mem fun {x y} hx hy hxy => ?_
  have hx4 := h4 x hx
  have hy4 := h4 y hy
  omega

/-- A section ends with its last word, and the next one starts with its first. -/
theorem pairwise_of_expand {sections : List Section} (hne : ∀ s ∈ sections, s.data ≠ [])
    (h : (expand sections).Pairwise fun x y => x.1 + 4 ≤ y.1) :
    sections.Pairwise fun s t => s.address + s.byteSize ≤ t.address := by
  refine (List.pairwise_flatMap.mp h).2.imp_of_mem fun {s t} hs ht hst => ?_
  obtain ⟨a, v, hlast, ha⟩ := getLast?_entries (hne s hs)
  obtain ⟨w, hhead⟩ := head?_entries (hne t ht)
  rw [← ha]
  exact hst _ (List.mem_of_getLast? hlast) _ (List.mem_of_head? hhead)

/-- What is behind a neighbour is further up than the neighbour, so gaps need only be between
neighbours. -/
theorem spaced_of_separated {sections : List Section}
    (hle : sections.Pairwise fun s t => s.address + s.byteSize ≤ t.address)
    (hsep : Separated sections) : Region.Spaced (sections.map region) := by
  induction sections with
  | nil => exact List.Pairwise.nil
  | cons s rest ih =>
    obtain ⟨hs, hrest⟩ := List.pairwise_cons.mp hle
    refine List.pairwise_cons.mpr ⟨?_, ih hrest (List.IsChain.tail hsep)⟩
    cases rest with
    | nil => simp
    | cons t rest =>
      have hst : s.address + s.byteSize < t.address :=
        Nat.lt_of_le_of_ne (hs t List.mem_cons_self) (List.isChain_cons_cons.mp hsep).1
      intro r hr
      obtain ⟨u, hu, rfl⟩ := List.mem_map.mp hr
      rcases List.mem_cons.mp hu with rfl | hu
      · exact hst
      · have htu := (List.pairwise_cons.mp hrest).1 u hu
        simp only [region]
        omega

theorem spaced_group {es : List (Nat × Word)} (hasc : es.Pairwise (·.1 < ·.1))
    (h4 : ∀ e ∈ es, e.1 % 4 = 0) : Region.Spaced ((group es).map region) := by
  refine spaced_of_separated (pairwise_of_expand (ne_nil_of_mem_group es) ?_) (separated_group es)
  rw [expand_group]
  exact pairwise_of_aligned hasc h4

end Section

/-! ## Designs -/

namespace Device

/-- The segments of all programs that are accepted start at a word. -/
def ProgramsAligned (d : Device) (source : ProgramSource) (dir : String) : Prop :=
  ∀ x ∈ d.tiles, x.kind = .compute → ∀ image, x.HasProgram source dir image →
    ∀ s ∈ image.segments, s.data ≠ [] → s.address.toNat % 4 = 0

variable {d : Device} {source : ProgramSource} {dir : String} {addresses : AddressSource}

theorem aligned_iff (hv : d.Valid) (hs : (d.script source dir addresses).Completes) :
    (∀ a, (d.script source dir addresses).Touches a → a % 4 = 0) ↔
      d.ProgramsAligned source dir := by
  constructor
  · intro h x hx hk image hprog s hm hne
    have hsetup := Script.completes_flatMap.mp (completes_tileSteps_of_script hs) x hx
    rw [Tile.setupSteps_eq, Script.completes_onTile] at hsetup
    obtain ⟨t, ht, -⟩ := hsetup
    obtain ⟨dest, hd, -⟩ := Segment.verdict_eq_fits (hprog.verdict_eq hm)
    have hcount : 0 < s.wordCount := Nat.pos_of_ne_zero (mt Segment.wordCount_eq_zero_iff.mp hne)
    have hfirst : s.Places dest := ⟨dest, hd, 0, hcount, rfl⟩
    have hword : d.ProgramWord source dir (t.address dest) :=
      ⟨x, hx, hk, t, ht, dest, Tile.programPlaces_iff.mpr ⟨image, hprog, s, hm, hfirst⟩, rfl⟩
    rw [← hfirst.mod_four, ← t.address_mod_four]
    exact h _ ((touches_script hv hs).mpr (.inr (.inr (.inr hword))))
  · intro h a ha
    rcases (touches_script hv hs).mp ha with ⟨x, -, -, t, -, r, hr, o, ho, rfl⟩ |
      ⟨x, -, hk, t, -, r, hr, o, ho, rfl⟩ | ⟨m, -, t, -, c, -, o, bits, hb, rfl⟩ |
      ⟨x, hx, hk, t, -, o, ho, rfl⟩
    · rw [t.address_mod_four]
      exact TileKind.compute.mod_four_of_mem_words hr ho
    · rw [t.address_mod_four]
      rw [← resetRegions_of_ne_compute hk] at hr
      exact x.kind.mod_four_of_mem_words hr ho
    · rw [t.address_mod_four]
      rcases Connect.muxBits_offset hb with rfl | rfl <;> rfl
    · obtain ⟨image, hprog, s, hm, hplace⟩ := Tile.programPlaces_iff.mp ho
      rw [t.address_mod_four, hplace.mod_four]
      refine h x hx hk image hprog s hm ?_
      intro hnil
      obtain ⟨_, _, i, hi, _⟩ := hplace
      rw [Segment.wordCount_eq_zero_iff.mpr hnil] at hi
      omega

/-- All addresses of an image are aligned when the segments of the programs are, and only then, and
its sections are apart from each other. -/
theorem compile_apart {r : Report} (hv : d.issues = [])
    (h : d.compile source dir addresses = .ok r) :
    ∃ log, d.configure source dir addresses = .ok (log, r.diagnostics) ∧
      log.sections = .ok r.sections ∧
      ((∀ a, (log.get? a).isSome → a % 4 = 0) ↔ d.ProgramsAligned source dir) ∧
      (d.ProgramsAligned source dir → Section.Apart r.sections) := by
  have hvalid := valid_of_issues hv
  obtain ⟨log, hconf, hsec⟩ := configure_of_compile h
  obtain ⟨hs, rfl, -⟩ := configure_eq_ok_iff.mp hconf
  have haligned : (∀ a, (((d.script source dir addresses).applyTo .empty).get? a).isSome →
      a % 4 = 0) ↔ d.ProgramsAligned source dir := by
    rw [← aligned_iff hvalid hs]
    simp only [Script.isSome_get?_applyTo hs, WriteLog.get?_empty, Option.isSome_none,
      Bool.false_eq_true, false_or]
  refine ⟨_, hconf, hsec, haligned, fun hprog => ?_⟩
  rw [WriteLog.eq_group_of_sections hsec]
  refine Section.apart_of_spaced (Section.spaced_group (WriteLog.entries_ascending _) ?_)
  rintro ⟨a, v⟩ he
  refine haligned.mpr hprog a ?_
  rw [WriteLog.mem_entries_iff.mp he]
  rfl

def programFile (address : UInt8) : List UInt8 :=
  [0x7F, 0x45, 0x4C, 0x46, 1, 1, 1, 0, 0, 0, 0, 0, 0, 0, 0, 0] ++
    [2, 0, 0, 0, 1, 0, 0, 0, 0, 0, 0, 0, 52, 0, 0, 0, 0, 0, 0, 0, 0, 0, 0, 0, 52, 0, 32, 0, 1, 0] ++
    [0, 0, 0, 0, 0, 0] ++
    [1, 0, 0, 0, 84, 0, 0, 0, address, 0, 0, 0, address, 0, 0, 0, 4, 0, 0, 0, 4, 0, 0, 0] ++
    [5, 0, 0, 0, 4, 0, 0, 0] ++ [0x11, 0x22, 0x33, 0x44]

def programFiles (address : UInt8) : FileSystem where
  read := fun _ => .ok (programFile address)
  outputError? := fun _ => none

theorem programs_two (path : String) : (programFiles 2).programs path =
    .ok ⟨[⟨2, true, [0x11, 0x22, 0x33, 0x44]⟩]⟩ := rfl

theorem programs_four (path : String) : (programFiles 4).programs path =
    .ok ⟨[⟨4, true, [0x11, 0x22, 0x33, 0x44]⟩]⟩ := rfl

theorem issues_oneCore : oneCore.issues = [] := by
  decide +kernel

theorem completes_script_oneCore {source : ProgramSource} {p : ProgramImage}
    (hp : ∀ path, source path = .ok p) (hv : p.verdict = .fits) (addresses : AddressSource) :
    (oneCore.script source "." addresses).Completes := by
  rw [script_eq, Script.completes_append, Script.completes_append]
  exact ⟨⟨completes_oneCore hp hv, rfl⟩, rfl⟩

theorem alignedFile_apart : ∃ r log,
    oneCore.issues = [] ∧
    oneCore.compile (programFiles 4).programs "." oneCore.addressOf? = .ok r ∧
    oneCore.configure (programFiles 4).programs "." oneCore.addressOf? = .ok (log, r.diagnostics) ∧
    (∀ a, (log.get? a).isSome → a % 4 = 0) ∧ Section.Apart r.sections := by
  have hs := completes_script_oneCore programs_four rfl oneCore.addressOf?
  obtain ⟨r, hc⟩ := exists_report (valid_of_issues issues_oneCore) hs
  obtain ⟨log, hconf, -, haligned, hapart⟩ := compile_apart issues_oneCore hc
  have hprog : oneCore.ProgramsAligned (programFiles 4).programs "." := by
    rintro x - - image ⟨core, -, h, -⟩ s hm -
    rw [programs_four] at h
    cases h
    rw [List.mem_singleton.mp hm]
    rfl
  exact ⟨r, log, issues_oneCore, hc, hconf, haligned.mpr hprog, hapart hprog⟩

/-- A segment whose address is no multiple of four is accepted, and then there are two sections with
a byte for the address where it starts. -/
theorem unalignedFile_overlaps : ∃ r log,
    oneCore.issues = [] ∧
    oneCore.compile (programFiles 2).programs "." oneCore.addressOf? = .ok r ∧
    oneCore.configure (programFiles 2).programs "." oneCore.addressOf? = .ok (log, r.diagnostics) ∧
    (log.get? (coreTile.address 0x20002)).isSome ∧ coreTile.address 0x20002 % 4 ≠ 0 ∧
    ∃ s ∈ r.sections, ∃ t ∈ r.sections, s ≠ t ∧
      (s.byteAt? (coreTile.address 0x20002)).isSome ∧
      (t.byteAt? (coreTile.address 0x20002)).isSome := by
  have hs := completes_script_oneCore programs_two rfl oneCore.addressOf?
  have hvalid := valid_of_issues issues_oneCore
  obtain ⟨r, hc⟩ := exists_report hvalid hs
  obtain ⟨log, hconf, hsec⟩ := configure_of_compile hc
  obtain ⟨-, hlog, -⟩ := configure_eq_ok_iff.mp hconf
  have hcleared : oneCore.ComputeWord (coreTile.address 0x20000) :=
    ⟨_, List.mem_cons_self, rfl, coreTile, rfl, RegisterMap.programMemory, List.mem_cons_self,
      0x20000, Region.mem_words.mpr ⟨0, by decide, rfl⟩, rfl⟩
  have hprogram : oneCore.ProgramWord (programFiles 2).programs "." (coreTile.address 0x20002) :=
    ⟨_, List.mem_cons_self, rfl, coreTile, rfl, 0x20002, ⟨_, rfl, _, programs_two _, rfl, _,
      List.mem_cons_self, 0x20002, rfl, 0, by decide, rfl⟩, rfl⟩
  have hwritten : ∀ a, oneCore.ComputeWord a ∨ oneCore.ProgramWord (programFiles 2).programs "." a →
      ∃ v, (a, v) ∈ Section.expand r.sections := by
    intro a ha
    have hsome : (log.get? a).isSome := by
      rw [hlog, Script.isSome_get?_applyTo hs, touches_script hvalid hs]
      exact .inr (ha.imp id fun h => .inr (.inr h))
    obtain ⟨v, hv⟩ := Option.isSome_iff_exists.mp hsome
    rw [WriteLog.eq_group_of_sections hsec, Section.expand_group]
    exact ⟨v, WriteLog.mem_entries_iff.mpr hv⟩
  obtain ⟨v, hv⟩ := hwritten _ (.inl hcleared)
  obtain ⟨w, hw⟩ := hwritten _ (.inr hprogram)
  have hlt : coreTile.address 0x20000 < coreTile.address 0x20002 := by decide
  have hover : coreTile.address 0x20002 < coreTile.address 0x20000 + 4 := by decide
  refine ⟨r, log, issues_oneCore, hc, hconf, ?_, by decide,
    Section.exists_overlap hv hw hlt hover⟩
  rw [hlog, Script.isSome_get?_applyTo hs, touches_script hvalid hs]
  exact .inr (.inr (.inr (.inr hprogram)))

end Device
end ArrayImage
