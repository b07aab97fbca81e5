import ArrayImage.Proofs.Bytes
import ArrayImage.Proofs.ProgramWords
import ArrayImage.Program.Reader
import Mathlib.Data.List.Forall2

/-!
# ArrayImage.Proofs.ProgramReading

Which program is in a file.

The headers are found by a library, so what is read depends on it: `ProgramImage.readWith` takes
the library as a parameter. It hands it 32-bit little-endian files only (`IsNative`), and of such a
file it is asked that it is refused when its tables reach past its end, and that its program headers
are returned as they stand in it (`TableSource.Faithful`). Whatever the library makes of other files
does not matter. `ProgramFile.Reads` lists, case by case, what comes of a file, and `readWith_exact`
says that nothing else can. The reader of the project is one of them (`ofBytes_eq_readWith`).
-/

namespace ArrayImage
namespace ProgramFile

/-- Finds the program headers of a file, or says why there are none. -/
abbrev TableSource := List UInt8 → Except String (List ProgramHeader)

/-! ## Headers as they stand in a file -/

def headerAt (file : List UInt8) (place : Nat) : ProgramHeader where
  kind := natAt file place 4
  offset := natAt file (place + 4) 4
  address := natAt file (place + 8) 4
  size := natAt file (place + 16) 4
  memorySize := natAt file (place + 20) 4
  flags := natAt file (place + 24) 4

def storedHeaders (file : List UInt8) : List ProgramHeader :=
  let h := header file
  (List.range h.programCount).map fun i => headerAt file (h.programOffset + programHeaderSize * i)

theorem natAt_drop (file : List UInt8) (m place count : Nat) :
    natAt (file.drop m) place count = natAt file (m + place) count := by
  rw [natAt, natAt, List.drop_drop]

theorem ofBytes_drop (file : List UInt8) (place : Nat) :
    ProgramHeader.ofBytes (file.drop place) = headerAt file place := by
  simp [ProgramHeader.ofBytes, headerAt, natAt_drop]

theorem programHeaders_eq (count : Nat) (file : List UInt8) (place : Nat) :
    programHeaders count (file.drop place) =
      (List.range count).map fun i => headerAt file (place + programHeaderSize * i) := by
  induction count generalizing place with
  | zero => rfl
  | succ count ih =>
    rw [programHeaders, ofBytes_drop, List.drop_drop, ih, List.range_succ_eq_map, List.map_cons,
      List.map_map]
    simp [Function.comp_def, Nat.mul_add, Nat.add_assoc, Nat.add_comm programHeaderSize]

theorem programTable_eq (file : List UInt8) : programTable file = storedHeaders file :=
  programHeaders_eq _ _ _

/-- All fields are 32 bits wide. -/
theorem storedHeaders_bounds {file : List UInt8} {h : ProgramHeader} (hm : h ∈ storedHeaders file) :
    h.address < 0x100000000 ∧ h.size < 0x100000000 := by
  obtain ⟨i, -, rfl⟩ := List.mem_map.mp hm
  exact ⟨natAt_lt _ _ 4, natAt_lt _ _ 4⟩

/-! ## Segments -/

namespace ProgramHeader

/-- The header asks for bytes that the file does not have. -/
def overruns (file : List UInt8) (h : ProgramHeader) : Bool :=
  h.isLoadable && file.length < h.offset + h.size

/-- The segment has the address, the permission and the bytes that its header names. -/
structure Names (file : List UInt8) (h : ProgramHeader) (s : Segment) : Prop where
  address : s.address.toNat = h.address
  executable : s.executable = h.flags.testBit 0
  inside : h.offset + h.size ≤ file.length
  data : s.data = file.extract h.offset (h.offset + h.size)

variable {file : List UInt8} {h : ProgramHeader} {s : Segment}

theorem Names.rightUnique (file : List UInt8) : Relator.RightUnique (Names file) := by
  intro h s s' hs hs'
  obtain ⟨address, executable, data⟩ := s
  obtain ⟨address', executable', data'⟩ := s'
  have haddress : address = address' := UInt64.toNat_inj.mp (hs.address.trans hs'.address.symm)
  have hexecutable : executable = executable' := hs.executable.trans hs'.executable.symm
  have hdata : data = data' := hs.data.trans hs'.data.symm
  rw [haddress, hexecutable, hdata]

theorem Names.length_data (hs : h.Names file s) : s.data.length = h.size := by
  have hinside := hs.inside
  simp only [hs.data, List.extract, List.length_take, List.length_drop]
  omega

/-- A header with a 32-bit address whose bytes are in the file has its segment. -/
theorem segment_eq_ok_iff (ha : h.address < 0x100000000) :
    h.segment file = .ok s ↔ h.Names file s := by
  have hnames : h.block.fits file = true → h.Names file
      ⟨UInt64.ofNat h.address, h.flags % 2 == 1, h.block.bytes file⟩ := by
    intro hfits
    refine ⟨?_, ?_, of_decide_eq_true hfits, ?_⟩
    · rw [UInt64.toNat_ofNat', Nat.mod_eq_of_lt (Nat.lt_of_lt_of_le ha (by decide))]
    · rw [Nat.testBit_zero]
      rfl
    · simp [Block.bytes, block, List.extract]
  unfold segment
  split
  · rename_i hfits
    constructor
    · intro h
      cases h
      exact hnames hfits
    · intro h
      rw [Names.rightUnique file h (hnames hfits)]
  · rename_i hfits
    constructor
    · nofun
    · intro h
      exact absurd (decide_eq_true h.inside) hfits

theorem segment_eq_error (hfits : ¬ h.offset + h.size ≤ file.length) :
    h.segment file = .error (.segmentBounds h.address) :=
  if_neg fun h => hfits (of_decide_eq_true h)

end ProgramHeader

/-- Either every loadable header has its segment, or the first one without its bytes is named. -/
theorem segments_eq (file : List UInt8) {hs : List ProgramHeader}
    (ha : ∀ h ∈ hs, h.address < 0x100000000) :
    match hs.find? (ProgramHeader.overruns file) with
    | some h => segments file hs = .error (.segmentBounds h.address)
    | none => ∃ ss, segments file hs = .ok ss ∧
        List.Forall₂ (ProgramHeader.Names file) (hs.filter ProgramHeader.isLoadable) ss := by
  induction hs with
  | nil => exact ⟨[], rfl, .nil⟩
  | cons h rest ih =>
    rw [List.forall_mem_cons] at ha
    specialize ih ha.2
    rw [List.find?_cons, List.filter_cons, segments]
    cases hload : h.isLoadable with
    | false =>
      simpa [ProgramHeader.overruns, hload] using ih
    | true =>
      -- the bytes of this header are looked up before those of the rest, so its error comes first
      by_cases hfits : h.offset + h.size ≤ file.length
      · have hover : h.overruns file = false := by
          simp [ProgramHeader.overruns, hfits]
        have hsegment : ∃ s, h.segment file = .ok s := ⟨_, if_pos (decide_eq_true hfits)⟩
        obtain ⟨s, hs⟩ := hsegment
        simp only [hover, if_true, hs]
        cases hf : rest.find? (ProgramHeader.overruns file) with
        | some x =>
          rw [hf] at ih
          simp only [ih]
          rfl
        | none =>
          rw [hf] at ih
          obtain ⟨ss, hss, hnames⟩ := ih
          simp only [hss]
          exact ⟨s :: ss, rfl, .cons ((ProgramHeader.segment_eq_ok_iff ha.1).mp hs) hnames⟩
      · have hover : h.overruns file = true := by
          simp [ProgramHeader.overruns, hload]
          omega
        simp only [hover, if_true, ProgramHeader.segment_eq_error hfits]
        rfl

/-! ## Files -/

def IsIdentified (file : List UInt8) : Prop :=
  16 ≤ file.length ∧ magic <+: file

instance (file : List UInt8) : Decidable (IsIdentified file) :=
  inferInstanceAs (Decidable (_ ∧ _))

/-- The identification is of a 32-bit little-endian file. -/
structure IsNative (file : List UInt8) : Prop where
  identified : IsIdentified file
  wordSize : file[4]? = some 1
  byteOrder : file[5]? = some 1

/-- A library refuses 32-bit little-endian files whose tables reach past their end, and finds the
program headers that stand in the other ones. -/
structure TableSource.Faithful (tables : TableSource) : Prop where
  fit : ∀ file headers, IsNative file → tables file = .ok headers → tablesFit file = true
  stored : ∀ file headers, IsNative file → tables file = .ok headers →
    headers = storedHeaders file

theorem TableSource.Faithful.bounds {tables : TableSource} (hf : tables.Faithful)
    {file : List UInt8} (hn : IsNative file) {headers : List ProgramHeader}
    (ht : tables file = .ok headers) :
    ∀ h ∈ headers, h.address < 0x100000000 ∧ h.size < 0x100000000 := by
  intro h hm
  rw [hf.stored file headers hn ht] at hm
  exact storedHeaders_bounds hm

/-- What comes of a file, with the program headers that a library finds. -/
inductive Reads (tables : TableSource) (file : List UInt8) : Except LoadError ProgramImage → Prop
  | unidentified : ¬ IsIdentified file → Reads tables file (.error (.malformed "missing ELF magic"))
  | wrongClass : IsIdentified file → file[4]? ≠ some 1 → Reads tables file (.error .wrongClass)
  | wrongEndianness : IsIdentified file → file[4]? = some 1 → file[5]? ≠ some 1 →
    Reads tables file (.error .wrongEndianness)
  | refused {reason : String} : IsNative file → tables file = .error reason →
    Reads tables file (.error (.malformed reason))
  | overrun {headers : List ProgramHeader} {h : ProgramHeader} : IsNative file →
    tables file = .ok headers → headers.find? (ProgramHeader.overruns file) = some h →
    Reads tables file (.error (.segmentBounds h.address))
  | program {headers : List ProgramHeader} {segments : List Segment} : IsNative file →
    tables file = .ok headers → headers.find? (ProgramHeader.overruns file) = none →
    List.Forall₂ (ProgramHeader.Names file) (headers.filter ProgramHeader.isLoadable) segments →
    Reads tables file (.ok ⟨segments⟩)

theorem natAt_one (file : List UInt8) (place : Nat) :
    natAt file place 1 = 1 ↔ file[place]? = some 1 := by
  have hdrop : file[place]? = (file.drop place)[0]? := by simp
  rw [natAt, hdrop]
  cases file.drop place with
  | nil => simp [natOfBytes]
  | cons b rest => simp [natOfBytes, ← UInt8.toNat_inj]

theorem isIdentified_iff {file : List UInt8} :
    IsIdentified file ↔ ¬ (file.length < 16 ∨ file.take 4 ≠ magic) := by
  rw [IsIdentified, List.prefix_iff_eq_take, not_or, not_not, Nat.not_lt, eq_comm]
  rfl

theorem checkIdent_eq (file : List UInt8) : checkIdent file =
    if ¬ IsIdentified file then .error (.malformed "missing ELF magic")
    else if file[4]? ≠ some 1 then .error .wrongClass
    else if file[5]? ≠ some 1 then .error .wrongEndianness
    else .ok () := by
  simp only [checkIdent, isIdentified_iff, natAt_one, not_not, ne_eq]

theorem IsNative.checkIdent {file : List UInt8} (h : IsNative file) :
    checkIdent file = .ok () := by
  simp [checkIdent_eq, h.identified, h.wordSize, h.byteOrder]

end ProgramFile

namespace ProgramImage

open ProgramFile

/-- The program in a file whose headers a library finds. -/
def readWith (tables : TableSource) (file : List UInt8) : Except LoadError ProgramImage := do
  checkIdent file
  match tables file with
  | .error reason => throw (.malformed reason)
  | .ok headers => return ⟨← ProgramFile.segments file headers⟩

section ReadWith

variable {tables : TableSource} {file : List UInt8}

theorem readWith_of_refused (h : IsNative file) {reason : String}
    (ht : tables file = .error reason) :
    readWith tables file = .error (.malformed reason) := by
  simp only [readWith, h.checkIdent, ht]
  rfl

theorem readWith_of_headers (h : IsNative file) {headers : List ProgramHeader}
    (ht : tables file = .ok headers) :
    readWith tables file = (ProgramFile.segments file headers).map ProgramImage.mk := by
  simp only [readWith, h.checkIdent, ht]
  cases ProgramFile.segments file headers <;> rfl

theorem readWith_of_not_native {e : LoadError} (h : checkIdent file = .error e) :
    readWith tables file = .error e := by
  simp only [readWith, h]
  rfl

/-- What comes of a file is one of the cases. -/
theorem reads_readWith (hf : tables.Faithful) : Reads tables file (readWith tables file) := by
  by_cases hi : IsIdentified file
  · by_cases hc : file[4]? = some 1
    · by_cases hd : file[5]? = some 1
      · have hnative : IsNative file := ⟨hi, hc, hd⟩
        cases ht : tables file with
        | error reason =>
          rw [readWith_of_refused hnative ht]
          exact .refused hnative ht
        | ok headers =>
          have hsegments := segments_eq file fun h hm => (hf.bounds hnative ht h hm).1
          rw [readWith_of_headers hnative ht]
          cases ho : headers.find? (ProgramHeader.overruns file) with
          | some h =>
            simp only [ho] at hsegments
            rw [hsegments]
            exact .overrun hnative ht ho
          | none =>
            simp only [ho] at hsegments
            obtain ⟨ss, hss, hnames⟩ := hsegments
            rw [hss]
            exact .program hnative ht ho hnames
      · have hident : checkIdent file = .error .wrongEndianness := by
          simp [checkIdent_eq, hi, hc, hd]
        rw [readWith_of_not_native hident]
        exact .wrongEndianness hi hc hd
    · have hident : checkIdent file = .error .wrongClass := by
        simp [checkIdent_eq, hi, hc]
      rw [readWith_of_not_native hident]
      exact .wrongClass hi hc
  · have hident : checkIdent file = .error (.malformed "missing ELF magic") := by
      simp [checkIdent_eq, hi]
    rw [readWith_of_not_native hident]
    exact .unidentified hi

/-- No two cases have the same file, and each case has one answer. -/
theorem readWith_of_reads (hf : tables.Faithful) {r : Except LoadError ProgramImage}
    (h : Reads tables file r) : readWith tables file = r := by
  cases h with
  | unidentified hi => exact readWith_of_not_native (by simp [checkIdent_eq, hi])
  | wrongClass hi hc => exact readWith_of_not_native (by simp [checkIdent_eq, hi, hc])
  | wrongEndianness hi hc hd =>
    exact readWith_of_not_native (by simp [checkIdent_eq, hi, hc, hd])
  | refused hnative ht => exact readWith_of_refused hnative ht
  | overrun hnative ht ho =>
    have hsegments := segments_eq file fun h hm => (hf.bounds hnative ht h hm).1
    simp only [ho] at hsegments
    rw [readWith_of_headers hnative ht, hsegments]
    rfl
  | program hnative ht ho hnames =>
    have hsegments := segments_eq file fun h hm => (hf.bounds hnative ht h hm).1
    simp only [ho] at hsegments
    obtain ⟨ss, hss, hnames'⟩ := hsegments
    rw [readWith_of_headers hnative ht, hss,
      (ProgramHeader.Names.rightUnique file).forall₂ hnames hnames']
    rfl

theorem readWith_bounds (hf : tables.Faithful) {p : ProgramImage}
    (h : readWith tables file = .ok p) :
    ∀ s ∈ p.segments, s.address.toNat < 0x100000000 ∧ s.data.length < 0x100000000 := by
  cases h ▸ reads_readWith hf with
  | @program headers segments hnative ht _ hnames =>
    have hheaders : ∀ h ∈ headers.filter ProgramHeader.isLoadable,
        h.address < 0x100000000 ∧ h.size < 0x100000000 :=
      fun h hm => hf.bounds hnative ht h (List.mem_of_mem_filter hm)
    have hboth := (List.forall₂_and_left _ _).mpr ⟨hheaders, hnames⟩
    have hsegments : List.Forall₂ (fun s h => (s.address.toNat < 0x100000000 ∧
        s.data.length < 0x100000000) ∧ ProgramHeader.Names file h s) segments
        (headers.filter ProgramHeader.isLoadable) := by
      refine hboth.flip.imp fun s h hs => ⟨?_, hs.2⟩
      rw [hs.2.address, hs.2.length_data]
      exact hs.1
    exact ((List.forall₂_and_left _ _).mp hsegments).1

end ReadWith

/-! ## Loading what was read -/

theorem sumsFit_of_bounds {s : Segment} (ha : s.address.toNat < 0x100000000)
    (hd : s.data.length < 0x100000000) : s.SumsFit := by
  unfold Segment.SumsFit Segment.limit Segment.home Segment.memory Segment.start Segment.wordCount
  split <;> simp only [RegisterMap.programMemory, RegisterMap.dataMemory] <;> omega

/-- Where all sums fit, only the column of the tile can keep a program from being loaded. -/
theorem load_eq_error {t : TileId} {p : ProgramImage} (hsums : ∀ s ∈ p.segments, s.SumsFit)
    {log : WriteLog} {stop : Stop} (h : p.load t log = .error stop) :
    t.column = 0 ∧ ∃ o, stop = .fault (.writeToColumnZero o) := by
  have hverdict := verdict_eq_find? hsums
  cases hf : p.segments.find? fun s => windowSize < s.limit with
  | some s =>
    simp only [hf] at hverdict
    simp only [load, placeSteps, hverdict] at h
    cases h
  | none =>
    simp only [hf] at hverdict
    simp only [load, placeSteps, hverdict, Script.perform_eq] at h
    have hzero : t.column = 0 := by
      by_contra hne
      have hc := completes_segments (Nat.pos_of_ne_zero hne) (verdict_eq_fits hverdict)
      rw [hc] at h
      cases h
    refine ⟨hzero, ?_⟩
    cases hstop : Script.stop? (p.segments.flatMap (Segment.placeSteps t)) with
    | none =>
      rw [hstop] at h
      cases h
    | some stop' =>
      rw [hstop] at h
      cases h
      obtain ⟨x, hx, hxs⟩ := List.exists_of_findSome?_eq_some hstop
      obtain ⟨s, hs, hx⟩ := List.mem_flatMap.mp hx
      rw [Segment.placeSteps_of_sumsFit t (hsums s hs)] at hx
      obtain ⟨y, -, rfl⟩ := List.mem_map.mp hx
      refine ⟨s.home + 4 * y.2, ?_⟩
      simp only [Step.put, Write.at?, hzero, Nat.lt_irrefl, dif_neg, not_false_iff] at hxs
      cases hxs
      rfl

/-! ## Exactness -/

def soundTables : TableSource := fun file =>
  if isSound file then .ok (programTable file) else .error ""

theorem ofBytes_eq_readWith (file : List UInt8) : ofBytes file = readWith soundTables file := by
  unfold ofBytes readWith soundTables
  cases checkIdent file with
  | error e => rfl
  | ok _ =>
    cases hs : isSound file with
    | true => rfl
    | false => rfl

theorem faithful_soundTables : soundTables.Faithful where
  fit file headers _ h := by
    unfold soundTables at h
    split at h
    · rename_i hs
      simp only [isSound, Bool.and_eq_true] at hs
      exact hs.1.1
    · cases h
  stored file headers _ h := by
    unfold soundTables at h
    split at h
    · cases h
      exact programTable_eq file
    · cases h

/-- A library that knows files of other machines as well, and finds no headers in them. -/
def tolerantTables : TableSource := fun file =>
  if file[4]? = some 1 ∧ file[5]? = some 1 then soundTables file else .ok []

theorem faithful_tolerantTables : tolerantTables.Faithful where
  fit file headers hn h := by
    rw [tolerantTables, if_pos ⟨hn.wordSize, hn.byteOrder⟩] at h
    exact faithful_soundTables.fit file headers hn h
  stored file headers hn h := by
    rw [tolerantTables, if_pos ⟨hn.wordSize, hn.byteOrder⟩] at h
    exact faithful_soundTables.stored file headers hn h

/-- All that is known of the program in a file. -/
structure ReadExactly (tables : TableSource) (file : List UInt8) : Prop where
  answer : ∀ r, readWith tables file = r ↔ Reads tables file r
  truncated : IsNative file → tablesFit file = false →
    ∃ reason, readWith tables file = .error (.malformed reason)
  address_lt : ∀ p, readWith tables file = .ok p → ∀ s ∈ p.segments, s.address.toNat < 0x100000000
  /-- Loading a program that was read adds nothing up that is too large. -/
  loads : ∀ p, readWith tables file = .ok p → ∀ t log stop, p.load t log = .error stop →
    t.column = 0 ∧ ∃ o, stop = .fault (.writeToColumnZero o)

/-- Every file is read exactly, whatever faithful library finds its headers. -/
theorem readWith_exact {tables : TableSource} (hf : tables.Faithful) (file : List UInt8) :
    ReadExactly tables file ∧ ofBytes file = readWith soundTables file := by
  refine ⟨⟨?_, ?_, ?_, ?_⟩, ofBytes_eq_readWith file⟩
  · intro r
    constructor
    · rintro rfl
      exact reads_readWith hf
    · exact readWith_of_reads hf
  · intro hnative hfit
    cases ht : tables file with
    | error reason => exact ⟨reason, readWith_of_refused hnative ht⟩
    | ok headers =>
      rw [hf.fit file headers hnative ht] at hfit
      cases hfit
  · intro p hp s hs
    exact (readWith_bounds hf hp s hs).1
  · intro p hp t log stop hstop
    refine load_eq_error (fun s hs => ?_) hstop
    obtain ⟨ha, hd⟩ := readWith_bounds hf hp s hs
    exact sumsFit_of_bounds ha hd

def entry (kind offset address size flags : Nat) : List UInt8 :=
  [kind, offset, address, address, size, size, flags, 4].flatMap (bytesOfNat 4)

def threeEntries (first second third : List UInt8) : List UInt8 :=
  magic ++ [1, 1, 1, 0, 0, 0, 0, 0, 0, 0, 0, 0] ++
    [2, 0, 0, 0, 1, 0, 0, 0, 0, 0, 0, 0, 52, 0, 0, 0, 0, 0, 0, 0, 0, 0, 0, 0, 52, 0, 32, 0, 3, 0] ++
    [0, 0, 0, 0, 0, 0] ++ first ++ second ++ third ++ [0x11, 0x22, 0x33, 0x44]

/-- A segment behind two headers that are left out, whatever bytes they ask for. -/
def sparseFile : List UInt8 :=
  threeEntries (entry 6 0xFFFFFFFF 0 0xFFFFFFFF 4) (entry 1 0xFFFFFFFF 0x10 0 5)
    (entry 1 148 0xFFFFFFFC 4 5)

def overrunFile : List UInt8 :=
  threeEntries (entry 6 0xFFFFFFFF 0 0xFFFFFFFF 4) (entry 1 149 0x20 4 5)
    (entry 1 0xFFFFFFFF 0x30 4 5)

def cutFile : List UInt8 :=
  threeEntries (entry 1 148 0 4 5) (entry 1 148 0x10 4 5) []

def wideFile : List UInt8 :=
  magic ++ [2, 1, 1, 0, 0, 0, 0, 0, 0, 0, 0, 0]

set_option maxRecDepth 4096 in
theorem sparseFile_exact :
    soundTables.Faithful ∧ tolerantTables.Faithful ∧
      ReadExactly soundTables sparseFile ∧ ReadExactly tolerantTables overrunFile ∧
      ofBytes sparseFile = .ok ⟨[⟨0xFFFFFFFC, true, [0x11, 0x22, 0x33, 0x44]⟩]⟩ ∧
      ofBytes overrunFile = .error (.segmentBounds 0x20) ∧
      (∃ reason, ofBytes cutFile = .error (.malformed reason)) ∧
      tolerantTables wideFile = .ok [] ∧ readWith tolerantTables wideFile = .error .wrongClass := by
  obtain ⟨hsparse, -⟩ := readWith_exact faithful_soundTables sparseFile
  obtain ⟨hover, -⟩ := readWith_exact faithful_tolerantTables overrunFile
  obtain ⟨hcut, heq⟩ := readWith_exact faithful_soundTables cutFile
  obtain ⟨hwide, -⟩ := readWith_exact faithful_tolerantTables wideFile
  refine ⟨faithful_soundTables, faithful_tolerantTables, hsparse, hover, rfl, rfl, ?_, rfl, ?_⟩
  · rw [heq]
    exact hcut.truncated ⟨⟨by decide, by decide⟩, rfl, rfl⟩ rfl
  · -- the class is looked at before the library is asked
    exact (hwide.answer _).mpr (.wrongClass ⟨by decide, by decide⟩ (by decide))

end ProgramImage
end ArrayImage
