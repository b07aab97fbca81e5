import ArrayImage.CommandLine
import ArrayImage.Proofs.Faults
import ArrayImage.Proofs.ProgramReading

/-!
# ArrayImage.Proofs.Preconditions

Which valid designs compile without a fault.

Segments of program files have 32-bit addresses and sizes, whatever faithful library finds their
headers (`programsWith_bounds`), so no program can cause a fault. What is left are three numbers of a
design that its rules do not bound: the offset of the array, the selects of amsels and the ends of
transfers. Each of them can end a run of a valid design in a fault (`issues_insufficient`), and when
they are bounded nothing can (`compile_of_bounded`).
-/

namespace ArrayImage

/-! ## Programs of files -/

namespace FileSystem

open ProgramImage

/-- The programs in some files, with headers that a library finds. -/
def programsWith (tables : ProgramFile.TableSource) (files : FileSystem) : ProgramSource :=
  fun path => do
    let bytes ← (files.read path).mapError fun _ => .unreadable path
    readWith tables bytes

theorem programs_eq_programsWith (files : FileSystem) :
    files.programs = files.programsWith soundTables := by
  funext path
  rw [programs, programsWith]
  cases files.read path with
  | error e => rfl
  | ok bytes => exact ofBytes_eq_readWith bytes

theorem programsWith_bounds {tables : ProgramFile.TableSource} (hf : tables.Faithful)
    {files : FileSystem} {path : String} {image : ProgramImage}
    (h : files.programsWith tables path = .ok image) :
    ∀ s ∈ image.segments, s.address.toNat < 0x100000000 ∧ s.data.length < 0x100000000 := by
  rw [programsWith] at h
  cases hr : files.read path with
  | error e =>
    rw [hr] at h
    cases h
  | ok bytes =>
    rw [hr] at h
    exact readWith_bounds hf h

end FileSystem

/-! ## Bounded designs -/

namespace Device

/-- The bounds that a design has to keep besides its rules. -/
structure Bounded (d : Device) : Prop where
  array : d.tiles ≠ [] → d.arrayOffset.toNat < 0x400000000
  msel : ∀ s ∈ d.switchboxes, ∀ a ∈ s.amsels, a.msel < 32
  transfer : ∀ m ∈ d.memories, ∀ b ∈ m.blocks, ∀ t ∈ b.transfers, ∀ base,
    d.addressOf? t.buffer = some base → base.toNat + t.offset.toNat < 0x10000000000000000

theorem not_faultCause {d : Device} (hb : d.Bounded) {tables : ProgramFile.TableSource}
    (hf : tables.Faithful) {files : FileSystem} {dir : String} (f : Fault) :
    ¬ d.FaultCause (files.programsWith tables) dir d.addressOf? f := by
  intro h
  cases h with
  | array tile offset =>
    exact Nat.not_lt.mpr offset (hb.array (List.ne_nil_of_mem tile))
  | select switchbox _ _ _ amsel msel =>
    exact UInt8.not_lt.mpr msel (hb.msel _ switchbox _ (List.mem_of_find?_eq_some amsel))
  | transfer memory block transfer resolved overflow =>
    exact Nat.not_lt.mpr overflow (hb.transfer _ memory _ block _ transfer _ resolved)
  | program _ _ _ loaded segment _ overflow =>
    obtain ⟨haddress, hlen⟩ := FileSystem.programsWith_bounds hf loaded _ segment
    rw [Segment.wordCount] at overflow
    omega

/-- A valid design that keeps the bounds has an image, whatever its program files hold and whatever
faithful library finds their headers, unless one of the files cannot be trusted. -/
theorem compile_of_bounded {tables : ProgramFile.TableSource} (hf : tables.Faithful) {d : Device}
    (hv : d.issues = []) (hb : d.Bounded) (files : FileSystem) (dir : String) :
    ((∃ r, d.compile (files.programsWith tables) dir d.addressOf? = .ok r) ∨
      ∃ e, d.compile (files.programsWith tables) dir d.addressOf? = .error (.abort e)) ∧
      files.programs = files.programsWith ProgramImage.soundTables := by
  refine ⟨?_, files.programs_eq_programsWith⟩
  refine compile_of_not_faultCause (valid_of_issues hv) ?_ (not_faultCause hb hf)
  intro path image hi s hs
  exact Nat.lt_trans (FileSystem.programsWith_bounds hf hi s hs).2 (by decide)

def edgeOfBounds : Device where
  schemaVersion := "1.0"
  name := "edge"
  arrayOffset := 0x3FFFFFFFF
  tiles := [⟨1, 1, none, some ⟨none⟩⟩]
  buffers := [⟨"top", 1, 1, some 0xFFFFFFFFFFFFFFFE, 32⟩]
  locks := []
  memories := [⟨1, 1, [⟨"fill", [⟨"top", .a, 1, 16⟩], [], none, none⟩], []⟩]
  switchboxes := [⟨1, 1, [], [⟨"last", 0, 31⟩], [⟨⟨.south, 0⟩, ["last"]⟩], []⟩]
  shimMuxes := []

theorem edgeOfBounds_bounded : edgeOfBounds.Bounded := by
  refine ⟨fun _ => by decide, by decide, ?_⟩
  intro m hm b hb t ht base hbase
  simp only [edgeOfBounds, List.mem_singleton] at hm
  subst hm
  simp only [List.mem_singleton] at hb
  subst hb
  simp only [List.mem_singleton] at ht
  subst ht
  cases hbase
  decide

def sparseFiles : FileSystem where
  read := fun _ => .ok ProgramImage.sparseFile
  outputError? := fun _ => none

theorem edgeOfBounds_compile :
    ProgramImage.soundTables.Faithful ∧ edgeOfBounds.issues = [] ∧ edgeOfBounds.Bounded ∧
      ((∃ r, edgeOfBounds.compile sparseFiles.programs "." edgeOfBounds.addressOf? = .ok r) ∨
        ∃ e, edgeOfBounds.compile sparseFiles.programs "." edgeOfBounds.addressOf? =
          .error (.abort e)) := by
  have hf := ProgramImage.faithful_soundTables
  have hv : edgeOfBounds.issues = [] := by decide +kernel
  obtain ⟨hruns, heq⟩ := compile_of_bounded hf hv edgeOfBounds_bounded sparseFiles "."
  refine ⟨hf, hv, edgeOfBounds_bounded, ?_⟩
  rw [heq]
  exact hruns

/-! ## Designs that are not bounded -/

theorem stop?_of_completes_tileSteps {d : Device} {source : ProgramSource} {dir : String}
    {addresses : AddressSource} (h : (d.tileSteps source dir).Completes) :
    (d.script source dir addresses).stop? =
      Script.stop? (d.streamSteps ++ d.dmaSteps addresses) := by
  have hnone : List.findSome? Step.stop? (d.tileSteps source dir) = none := h
  rw [script, List.append_assoc, Script.stop?, List.findSome?_append, hnone, Option.none_or,
    ← Script.stop?]

theorem compile_eq_error {d : Device} {source : ProgramSource} {dir : String}
    {addresses : AddressSource} {stop : Stop} (hv : d.issues = [])
    (ha : d.arrayOffset.toNat < 0x400000000) (hcore : ∀ x ∈ d.tiles, x.core = none)
    (h : Script.stop? (d.streamSteps ++ d.dmaSteps addresses) = some stop) :
    d.compile source dir addresses = .error stop := by
  have htiles : (d.tileSteps source dir).Completes :=
    completes_tileSteps (valid_of_issues hv) ha hcore
  simp only [compile, configure, stop?_of_completes_tileSteps htiles, h]

def wideSelect : Device where
  schemaVersion := "1.0"
  name := "wide"
  arrayOffset := 0
  tiles := [⟨1, 1, none, none⟩]
  buffers := []
  locks := []
  memories := []
  switchboxes := [⟨1, 1, [], [⟨"last", 0, 32⟩], [⟨⟨.south, 0⟩, ["last"]⟩], []⟩]
  shimMuxes := []

def highBuffer : Device where
  schemaVersion := "1.0"
  name := "high"
  arrayOffset := 0
  tiles := [⟨1, 1, none, none⟩]
  buffers := [⟨"top", 1, 1, some 0xFFFFFFFFFFFFFFFF, 32⟩]
  locks := []
  memories := [⟨1, 1, [⟨"fill", [⟨"top", .a, 1, 16⟩], [], none, none⟩], []⟩]
  switchboxes := []
  shimMuxes := []

/-- The rules of a design do not keep its run from a fault, whatever the programs of its cores
are. -/
theorem issues_insufficient :
    (farArray.issues = [] ∧ ∀ (source : ProgramSource) (dir : String),
      farArray.compile source dir farArray.addressOf? = .error (.fault .arrayTooLarge)) ∧
    (wideSelect.issues = [] ∧ ∀ (source : ProgramSource) (dir : String),
      wideSelect.compile source dir wideSelect.addressOf? = .error (.fault .shiftOverflow)) ∧
    (highBuffer.issues = [] ∧ ∀ (source : ProgramSource) (dir : String),
      highBuffer.compile source dir highBuffer.addressOf? = .error (.fault .addOverflow)) := by
  have hfar : farArray.issues = [] := by decide +kernel
  have hwide : wideSelect.issues = [] := by decide +kernel
  have hhigh : highBuffer.issues = [] := by decide +kernel
  refine ⟨⟨hfar, fun source dir => rfl⟩, ⟨hwide, fun source dir => ?_⟩, hhigh, fun source dir => ?_⟩
  · exact compile_eq_error hwide (by decide) (by simp [wideSelect]) rfl
  · exact compile_eq_error hhigh (by decide) (by simp [highBuffer]) rfl

end Device
end ArrayImage
