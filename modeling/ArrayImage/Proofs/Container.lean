import ArrayImage.Container.Reader
import ArrayImage.Proofs.Bytes

/-!
# ArrayImage.Proofs.Container

What the file of an image says, and that the image is read back from it.

The file is in five parts: header, data, names, padding, section headers. A place in one of the
parts is a place in the part alone, so that every header is read where the file header says
(`headerAt_encode`) and speaks of the bytes of its section (`contents?_data`).

* `read?_encode`: the reader gives the sections back, with their names.
* `encode_describes`: all that the file says about itself and its sections.
* `encode_roundTrip`: both, and no two lists of sections have the same file.
-/

namespace ArrayImage

/-- A joined list around the part of its item `i`. -/
theorem flatMap_eq_of_getElem? {α β : Type} {f : α → List β} {xs : List α} {i : Nat} {x : α}
    (h : xs[i]? = some x) :
    xs.flatMap f = (xs.take i).flatMap f ++ (f x ++ (xs.drop (i + 1)).flatMap f) := by
  obtain ⟨hi, rfl⟩ := List.getElem?_eq_some_iff.mp h
  rw [← List.flatMap_cons, ← List.drop_eq_getElem_cons hi, ← List.flatMap_append,
    List.take_append_drop]

theorem guard_eq_some {p : Prop} [Decidable p] (h : p) : (guard p : Option Unit) = some () :=
  if_pos h

namespace Container

/-! ## Section headers -/

namespace SectionHeader

structure Fits (h : SectionHeader) : Prop where
  name : h.name < 0x100000000
  kind : h.kind < 0x100000000
  flags : h.flags < 0x10000000000000000
  address : h.address < 0x10000000000000000
  offset : h.offset < 0x10000000000000000
  size : h.size < 0x10000000000000000
  align : h.align < 0x10000000000000000

theorem length_bytes (h : SectionHeader) : h.bytes.length = headerSize := by
  simp [bytes, headerSize]

theorem length_flatMap_bytes (hs : List SectionHeader) :
    (hs.flatMap bytes).length = headerSize * hs.length := by
  rw [List.length_flatMap]
  simp only [length_bytes, List.map_const', List.sum_replicate_nat]
  rw [Nat.mul_comm]

theorem ofBytes_append (xs ys : List UInt8) : ofBytes (xs ++ ys) xs.length = ofBytes ys 0 := by
  simp [ofBytes, natAt_append_right]

theorem ofBytes_bytes {h : SectionHeader} (hf : h.Fits) (rest : List UInt8) :
    ofBytes (h.bytes ++ rest) 0 = h := by
  obtain ⟨name, kind, flags, address, offset, size, align⟩ := hf
  simp [ofBytes, bytes, natAt_append_right, natAt_bytesOfNat, *]

/-- The headers behind `pre` are read one after the other. -/
theorem ofBytes_flatMap {hs : List SectionHeader} {i : Nat} {h : SectionHeader}
    (pre : List UInt8) (hi : hs[i]? = some h) (hf : h.Fits) :
    ofBytes (pre ++ hs.flatMap bytes) (pre.length + headerSize * i) = h := by
  have hlt : i < hs.length := (List.getElem?_eq_some_iff.mp hi).1
  have hplace : pre.length + headerSize * i = (pre ++ (hs.take i).flatMap bytes).length := by
    rw [List.length_append, length_flatMap_bytes, List.length_take, Nat.min_eq_left (by omega)]
  rw [flatMap_eq_of_getElem? hi, ← List.append_assoc, hplace, ofBytes_append, ofBytes_bytes hf]

end SectionHeader

/-! ## Names -/

/-- The bytes of a name. No name is the empty one. -/
def nameBytes (name : Option String) : List UInt8 :=
  (name.getD "").toUTF8.toList

theorem nameAt_place_of_mem : ∀ p ∈ regionNames,
    nameAt NameTable.bytes (NameTable.place (some p.2)) = nameBytes (some p.2) := by
  decide +kernel

theorem place_lt_of_mem : ∀ p ∈ regionNames, NameTable.place (some p.2) < 0x100000000 := by
  decide +kernel

theorem nameAt_ownName :
    nameAt NameTable.bytes (NameTable.place (some NameTable.ownName)) =
      nameBytes (some NameTable.ownName) := by
  decide +kernel

theorem place_ownName_lt : NameTable.place (some NameTable.ownName) < 0x100000000 := by
  decide +kernel

theorem exists_region_of_name? {s : Section} {name : String} (h : s.name? = some name) :
    ∃ p ∈ regionNames, p.2 = name := by
  rw [Section.name?, regionName?, List.lookup_eq_some_iff] at h
  obtain ⟨before, after, h, -⟩ := h
  exact ⟨_, by rw [h]; exact List.mem_append_right _ List.mem_cons_self, rfl⟩

theorem nameAt_place (s : Section) :
    nameAt NameTable.bytes (NameTable.place s.name?) = nameBytes s.name? := by
  cases h : s.name? with
  | none => decide +kernel
  | some name =>
    obtain ⟨p, hp, rfl⟩ := exists_region_of_name? h
    exact nameAt_place_of_mem p hp

theorem place_lt (s : Section) : NameTable.place s.name? < 0x100000000 := by
  cases h : s.name? with
  | none => decide
  | some name =>
    obtain ⟨p, hp, rfl⟩ := exists_region_of_name? h
    exact place_lt_of_mem p hp

/-! ## The parts of a file -/

theorem length_sectionBytes (s : Section) : (sectionBytes s).length = s.byteSize :=
  length_flatMap_bytesOfNat s.data

theorem length_flatMap_sectionBytes (sections : List Section) :
    (sections.flatMap sectionBytes).length = dataSize sections := by
  induction sections with
  | nil => rfl
  | cons s rest ih =>
    rw [List.flatMap_cons, List.length_append, length_sectionBytes, ih]
    rfl

theorem length_fileHeader (sections : List Section) :
    (fileHeader sections).length = headerSize := by
  simp [fileHeader, ident, headerSize]

def front (sections : List Section) : List UInt8 :=
  fileHeader sections ++ sections.flatMap sectionBytes ++ NameTable.bytes ++ padding sections

theorem encode_eq (sections : List Section) :
    encode sections = front sections ++ (headers sections).flatMap SectionHeader.bytes :=
  rfl

theorem namesEnd_le (sections : List Section) :
    namesOffset sections + NameTable.bytes.length ≤ headersOffset sections := by
  rw [headersOffset]
  omega

theorem length_front (sections : List Section) :
    (front sections).length = headersOffset sections := by
  have hle := namesEnd_le sections
  simp only [front, List.length_append, length_fileHeader, length_flatMap_sectionBytes, padding,
    List.length_replicate]
  rw [← namesOffset]
  omega

theorem length_dataHeaders (sections : List Section) (offset : Nat) :
    (dataHeaders sections offset).length = sections.length := by
  induction sections generalizing offset with
  | nil => rfl
  | cons s rest ih => rw [dataHeaders, List.length_cons, List.length_cons, ih]

theorem length_headers (sections : List Section) :
    (headers sections).length = headerCount sections := by
  simp [headers, headerCount, length_dataHeaders]

theorem length_encode (sections : List Section) :
    (encode sections).length = headersOffset sections + headerSize * headerCount sections := by
  rw [encode_eq, List.length_append, length_front, SectionHeader.length_flatMap_bytes,
    length_headers]

def dataHeader (s : Section) (offset : Nat) : SectionHeader :=
  { name := NameTable.place s.name?, kind := 1, flags := 2, address := s.address, offset,
    size := s.byteSize, align := 1 }

theorem getElem?_dataHeaders {sections : List Section} {i : Nat} {s : Section}
    (h : sections[i]? = some s) (offset : Nat) :
    (dataHeaders sections offset)[i]? =
      some (dataHeader s (offset + dataSize (sections.take i))) := by
  induction sections generalizing i offset with
  | nil => cases h
  | cons t rest ih =>
    cases i with
    | zero =>
      cases h
      rfl
    | succ i =>
      rw [List.getElem?_cons_succ] at h
      rw [dataHeaders, List.getElem?_cons_succ, ih h]
      simp only [List.take_succ_cons, dataSize, List.foldr_cons, Nat.add_assoc]

theorem dataSize_le {sections : List Section} {i : Nat} {s : Section}
    (h : sections[i]? = some s) :
    dataSize (sections.take i) + s.byteSize ≤ dataSize sections := by
  have hlen := congrArg List.length (flatMap_eq_of_getElem? (f := sectionBytes) h)
  simp only [List.length_append, length_flatMap_sectionBytes, length_sectionBytes] at hlen
  omega

/-! ## Headers of a file -/

/-- Sections that have a file: their number has room in the file header, and addresses and the size
of the file have 64 bits. -/
structure Encodable (sections : List Section) : Prop where
  count : sections.length < 65278
  address : ∀ s ∈ sections, s.address < 0x10000000000000000
  size : (encode sections).length < 0x10000000000000000

theorem headerCount_lt {sections : List Section} (he : Encodable sections) :
    headerCount sections < manySections := by
  have hcount := he.count
  rw [headerCount, manySections]
  omega

/-! ### Numbers of the file header -/

theorem encode_eq_append (sections : List Section) :
    encode sections = fileHeader sections ++ (sections.flatMap sectionBytes ++ NameTable.bytes ++
      padding sections ++ (headers sections).flatMap SectionHeader.bytes) := by
  simp only [encode, List.append_assoc]

theorem length_ident : ident.length = 16 := by
  simp [ident]

/-- The numbers that are the same in every file. -/
theorem natAt_encode (sections : List Section) :
    natAt (encode sections) 16 2 = 0 ∧ natAt (encode sections) 18 2 = machine ∧
      natAt (encode sections) 58 2 = headerSize ∧ natAt (encode sections) 62 2 = 1 := by
  rw [encode_eq_append]
  simp [fileHeader, length_ident, machine, headerSize, natAt_append_right, natAt_bytesOfNat]

/-- The numbers that say where the section headers are. -/
theorem natAt_encode_table {sections : List Section} (he : Encodable sections) :
    natAt (encode sections) 40 8 = headersOffset sections ∧
      natAt (encode sections) 60 2 = headerCount sections := by
  have hfew := headerCount_lt he
  have hshort : headerCount sections < 0x10000 := Nat.lt_trans hfew (by decide)
  have hoffset : headersOffset sections < 0x10000000000000000 := by
    have hsize := he.size
    rw [length_encode] at hsize
    omega
  rw [encode_eq_append]
  simp [fileHeader, length_ident, natAt_append_right, natAt_bytesOfNat, *]

/-! ### Section headers -/

/-- Every header of a file is the null header, that of the names or that of a section. -/
theorem getElem?_headers {sections : List Section} {i : Nat} {h : SectionHeader}
    (hi : (headers sections)[i]? = some h) :
    i = 0 ∧ h = nullHeader sections ∨ i = 1 ∧ h = namesHeader sections ∨
      ∃ j s, i = j + 2 ∧ sections[j]? = some s ∧
        h = dataHeader s (headerSize + dataSize (sections.take j)) := by
  match i with
  | 0 => exact .inl ⟨rfl, (Option.some.inj hi).symm⟩
  | 1 => exact .inr (.inl ⟨rfl, (Option.some.inj hi).symm⟩)
  | j + 2 =>
    have hi : (dataHeaders sections headerSize)[j]? = some h := hi
    have hj : j < sections.length := by
      rw [← length_dataHeaders sections headerSize]
      exact (List.getElem?_eq_some_iff.mp hi).1
    have hs := List.getElem?_eq_getElem hj
    rw [getElem?_dataHeaders hs] at hi
    exact .inr (.inr ⟨j, _, rfl, hs, (Option.some.inj hi).symm⟩)

theorem nullHeader_eq {sections : List Section} (he : Encodable sections) :
    nullHeader sections = {} := by
  simp only [nullHeader, headerCount_lt he, if_true]

theorem fits_headers {sections : List Section} (he : Encodable sections) {i : Nat}
    {h : SectionHeader} (hi : (headers sections)[i]? = some h) : h.Fits := by
  have hend := namesEnd_le sections
  have hsize := he.size
  rw [namesOffset] at hend
  rw [length_encode] at hsize
  obtain ⟨-, rfl⟩ | ⟨-, rfl⟩ | ⟨j, s, -, hs, rfl⟩ := getElem?_headers hi
  · rw [nullHeader_eq he]
    constructor <;> decide
  · have hname := place_ownName_lt
    constructor <;> simp only [namesHeader, namesOffset] <;> omega
  · have hname := place_lt s
    have haddress := he.address s (List.mem_of_getElem? hs)
    have hle := dataSize_le hs
    constructor <;> simp only [dataHeader] <;> omega

/-- The section header `i` of a file. -/
def headerAt (file : List UInt8) (i : Nat) : SectionHeader :=
  .ofBytes file (tableOffset file + headerSize * i)

theorem headerAt_encode {sections : List Section} (he : Encodable sections) {i : Nat}
    {h : SectionHeader} (hi : (headers sections)[i]? = some h) :
    headerAt (encode sections) i = h := by
  rw [headerAt, tableOffset, (natAt_encode_table he).1, ← length_front, encode_eq]
  exact SectionHeader.ofBytes_flatMap _ hi (fits_headers he hi)

theorem table?_encode {sections : List Section} (he : Encodable sections) :
    table? (encode sections) = some (headers sections) := by
  have hlength : tableLength (encode sections) = headerCount sections := by
    rw [tableLength, (natAt_encode_table he).2]
    rfl
  have hall : (List.range (headerCount sections)).map (headerAt (encode sections)) =
      headers sections := by
    refine List.ext_getElem (by simp [length_headers]) fun i hi hi' => ?_
    rw [List.getElem_map, List.getElem_range]
    exact headerAt_encode he (List.getElem?_eq_getElem hi')
  have hinside : tableOffset (encode sections) + headerSize * headerCount sections ≤
      (encode sections).length :=
    Nat.le_of_eq (by rw [tableOffset, (natAt_encode_table he).1, length_encode])
  rw [table?, hlength, guard_eq_some hinside]
  exact congrArg some hall

/-! ## Contents of a file -/

theorem contents?_append {h : SectionHeader} {pre contents post : List UInt8}
    (hoffset : h.offset = pre.length) (hsize : h.size = contents.length) :
    h.contents? (pre ++ (contents ++ post)) = some contents := by
  have hle : h.offset + h.size ≤ (pre ++ (contents ++ post)).length := by
    simp only [List.length_append]
    omega
  rw [SectionHeader.contents?, guard_eq_some hle, hoffset, hsize, List.drop_left, List.take_left]
  rfl

theorem contents?_names (sections : List Section) :
    (namesHeader sections).contents? (encode sections) = some NameTable.bytes := by
  have hplace : (fileHeader sections ++ sections.flatMap sectionBytes).length =
      namesOffset sections := by
    rw [List.length_append, length_fileHeader, length_flatMap_sectionBytes, namesOffset]
  rw [encode, List.append_assoc (_ ++ NameTable.bytes), List.append_assoc _ NameTable.bytes]
  exact contents?_append hplace.symm rfl

theorem contents?_data {sections : List Section} {i : Nat} {s : Section}
    (hi : sections[i]? = some s) :
    (dataHeader s (headerSize + dataSize (sections.take i))).contents? (encode sections) =
      some (sectionBytes s) := by
  have hplace : (fileHeader sections ++ (sections.take i).flatMap sectionBytes).length =
      headerSize + dataSize (sections.take i) := by
    rw [List.length_append, length_fileHeader, length_flatMap_sectionBytes]
  have hfile : encode sections = (fileHeader sections ++ (sections.take i).flatMap sectionBytes) ++
      (sectionBytes s ++ ((sections.drop (i + 1)).flatMap sectionBytes ++ NameTable.bytes ++
        padding sections ++ (headers sections).flatMap SectionHeader.bytes)) := by
    rw [encode, flatMap_eq_of_getElem? hi]
    simp only [List.append_assoc]
  rw [hfile]
  exact contents?_append hplace.symm (length_sectionBytes s).symm

/-- Headers of sections are read one by one. -/
theorem mapM_dataHeaders {α : Type} {f : SectionHeader → Option α} {g : Section → α}
    {sections : List Section} {offset : Nat}
    (h : ∀ i s, sections[i]? = some s →
      f (dataHeader s (offset + dataSize (sections.take i))) = some (g s)) :
    (dataHeaders sections offset).mapM f = some (sections.map g) := by
  induction sections generalizing offset with
  | nil => rfl
  | cons s rest ih =>
    have hs : f (dataHeader s offset) = some (g s) := h 0 s rfl
    have hrest : (dataHeaders rest (offset + s.byteSize)).mapM f = some (rest.map g) := by
      refine ih fun i t ht => ?_
      have := h (i + 1) t ht
      rwa [List.take_succ_cons, dataSize, List.foldr_cons, ← dataSize, ← Nat.add_assoc] at this
    rw [dataHeaders, List.mapM_cons, ← dataHeader, hs, hrest]
    rfl

theorem section?_data {sections : List Section} {i : Nat} {s : Section}
    (hi : sections[i]? = some s) :
    (dataHeader s (headerSize + dataSize (sections.take i))).section? (encode sections)
      NameTable.bytes = some (nameBytes s.name?, s) := by
  have hkind : (dataHeader s (headerSize + dataSize (sections.take i))).kind = 1 ∧
      (dataHeader s (headerSize + dataSize (sections.take i))).size % 4 = 0 :=
    ⟨rfl, Nat.mul_mod_right 4 s.data.length⟩
  rw [SectionHeader.section?, guard_eq_some hkind]
  simp only [contents?_data hi, Option.pure_def, Option.bind_eq_bind, Option.bind_some,
    sectionBytes, wordsOfBytes_flatMap]
  rw [← nameAt_place s]
  rfl

/-- The sections of a file are read back with their names. -/
theorem read?_encode {sections : List Section} (he : Encodable sections) :
    read? (encode sections) = some (sections.map fun s => (nameBytes s.name?, s)) := by
  obtain ⟨-, hmachine, -, hindex⟩ := natAt_encode sections
  have hident : (encode sections).take ident.length = ident := by
    rw [encode_eq_append]
    simp only [fileHeader, List.append_assoc, List.take_left]
  have hours : (encode sections).take ident.length = ident ∧
      natAt (encode sections) 18 2 = machine := ⟨hident, hmachine⟩
  have hnames : (headers sections)[1]? = some (namesHeader sections) := rfl
  have hdata : (headers sections).drop 2 = dataHeaders sections headerSize := rfl
  have hall : (dataHeaders sections headerSize).mapM
      (fun h => h.section? (encode sections) NameTable.bytes) =
        some (sections.map fun s => (nameBytes s.name?, s)) :=
    mapM_dataHeaders fun _ _ hi => section?_data hi
  rw [read?, guard_eq_some hours]
  simp only [table?_encode he, hindex, hnames, contents?_names, hdata, Option.bind_eq_bind,
    Option.bind_some]
  exact hall

/-! ## What a file says -/

/-- The name that a header has through the name table of its file, which is the section that the
file header gives. -/
def headerName? (file : List UInt8) (h : SectionHeader) : Option (List UInt8) :=
  ((headerAt file (natAt file 62 2)).contents? file).map (nameAt · h.name)

/-- A header that is that of a section: program data that take up memory, at the address of the
section, and in the file as the words of the section, each with its lowest byte first. -/
structure SectionHeader.IsOf (h : SectionHeader) (file : List UInt8) (s : Section) : Prop where
  kind : h.kind = 1
  flags : h.flags = 2
  address : h.address = s.address
  size : h.size = 4 * s.data.length
  contents : h.contents? file = some (s.data.flatMap fun word => bytesOfNat 4 word.toNat)
  name : headerName? file h = some (nameBytes s.name?)

/-- A file that says of itself that it has these sections. -/
structure Describes (file : List UInt8) (sections : List Section) : Prop where
  /-- 64 bits, little-endian, version 1, for the GNU system. -/
  ident : file.take 8 = [0x7F, 0x45, 0x4C, 0x46, 2, 1, 1, 3]
  untyped : natAt file 16 2 = 0
  machine : natAt file 18 2 = 225
  headerSize : natAt file 58 2 = 64
  headerCount : natAt file 60 2 = sections.length + 2
  inside : natAt file 40 8 + 64 * (sections.length + 2) ≤ file.length
  null : (file.drop (natAt file 40 8)).take 64 = List.replicate 64 0
  /-- The name table is a table of strings. -/
  names : natAt file 62 2 = 1 ∧ (headerAt file 1).kind = 3
  ownName : headerName? file (headerAt file 1) = some ".shstrtab".toUTF8.toList
  data : ∀ i s, sections[i]? = some s → (headerAt file (i + 2)).IsOf file s

theorem headerAt_one {sections : List Section} (he : Encodable sections) :
    headerAt (encode sections) 1 = namesHeader sections :=
  headerAt_encode he rfl

theorem headerName?_encode {sections : List Section} (he : Encodable sections)
    (h : SectionHeader) :
    headerName? (encode sections) h = some (nameAt NameTable.bytes h.name) := by
  obtain ⟨-, -, -, hindex⟩ := natAt_encode sections
  rw [headerName?, hindex, headerAt_one he, contents?_names]
  rfl

theorem isOf_headerAt {sections : List Section} (he : Encodable sections) {i : Nat} {s : Section}
    (hi : sections[i]? = some s) :
    (headerAt (encode sections) (i + 2)).IsOf (encode sections) s := by
  have hdata : (headers sections)[i + 2]? =
      some (dataHeader s (headerSize + dataSize (sections.take i))) := getElem?_dataHeaders hi _
  rw [headerAt_encode he hdata]
  refine ⟨rfl, rfl, rfl, rfl, contents?_data hi, ?_⟩
  rw [headerName?_encode he, ← nameAt_place s]
  rfl

theorem encode_describes {sections : List Section} (he : Encodable sections) :
    Describes (encode sections) sections := by
  obtain ⟨htype, hmachine, hheaderSize, hindex⟩ := natAt_encode sections
  obtain ⟨hplace, hcount⟩ := natAt_encode_table he
  refine ⟨?_, htype, hmachine, hheaderSize, hcount, ?_, ?_, ⟨hindex, ?_⟩, ?_,
    fun i s => isOf_headerAt he⟩
  · simp only [encode, fileHeader, ident, List.append_assoc, List.cons_append, List.take_succ_cons,
      List.take_zero]
  · refine Nat.le_of_eq ?_
    rw [hplace, length_encode]
    rfl
  · rw [hplace, ← length_front, encode_eq, List.drop_left, headers, nullHeader_eq he,
      List.flatMap_cons]
    exact List.take_left' rfl
  · rw [headerAt_one he]
    rfl
  · rw [headerName?_encode he, headerAt_one he]
    exact congrArg some nameAt_ownName

/-- The file of some sections describes them, they are read back from it, and no other sections
have the same file. -/
theorem encode_roundTrip {sections : List Section} (he : Encodable sections) :
    Describes (encode sections) sections ∧
      read? (encode sections) = some (sections.map fun s => (nameBytes s.name?, s)) ∧
      ∀ others, Encodable others → encode others = encode sections → others = sections := by
  refine ⟨encode_describes he, read?_encode he, fun others ho h => ?_⟩
  have hread := read?_encode ho
  rw [h, read?_encode he] at hread
  have hsections := congrArg (List.map Prod.snd) (Option.some.inj hread)
  simp only [List.map_map, Function.comp_def, List.map_id'] at hsections
  exact hsections.symm

def mixedSections : List Section :=
  [⟨0x23F000, [0x80000001, 7]⟩, ⟨0, []⟩, ⟨0xFFFFFFFFFFFFFFFC, [0xDEADBEEF]⟩]

theorem mixedSections_roundTrip :
    Encodable mixedSections ∧ Describes (encode mixedSections) mixedSections ∧
      read? (encode mixedSections) =
        some (mixedSections.map fun s => (nameBytes s.name?, s)) ∧
      ∀ others, Encodable others → encode others = encode mixedSections →
        others = mixedSections := by
  have he : Encodable mixedSections := by
    refine ⟨by decide, by decide, ?_⟩
    rw [length_encode]
    decide +kernel
  exact ⟨he, encode_roundTrip he⟩

end Container
end ArrayImage
