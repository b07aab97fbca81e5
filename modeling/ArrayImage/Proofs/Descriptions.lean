import ArrayImage.Proofs.Documents
import ArrayImage.Proofs.Nodes
import ArrayImage.Schema.Device

/-!
# ArrayImage.Proofs.Descriptions

A design is what its description says, whichever fields are left to their defaults.

Every part of a design has a `Codec`: its data fits its shape, and the part is read back from its
data. Lists and optional parts keep this, so it is proved from the innermost parts outwards. Whoever
reads data that fits also reads it where fields are left out (`Json.decode_ofValue`,
`Yaml.decode_ofValue`), so a design comes back from both forms of its description
(`Device.abridged_described`).
-/

namespace ArrayImage

/-- All parts of a type have data of this shape and are read back from it. -/
structure Codec {α : Type} (shape : Shape) (toValue : α → Value)
    (ofValue? : Value → Option α) : Prop where
  fits : ∀ a, shape.Fits (toValue a)
  reads : ∀ a, ofValue? (toValue a) = some a

/-! ## Numbers and texts -/

theorem codec_byte : Codec .byte .ofByte Value.byte? where
  fits b := b.toNat_lt
  reads b := by
    rw [Value.ofByte, Value.byte?, if_pos b.toNat_lt, UInt8.ofNat_toNat]

theorem codec_word : Codec .word .ofWord Value.word? where
  fits w := w.toNat_lt
  reads w := by
    rw [Value.ofWord, Value.word?, if_pos w.toNat_lt, UInt32.ofNat_toNat]

theorem codec_long : Codec .long .ofLong Value.long? where
  fits l := l.toNat_lt
  reads l := by
    rw [Value.ofLong, Value.long?, if_pos l.toNat_lt, UInt64.ofNat_toNat]

theorem codec_text : Codec .text .text Value.text? where
  fits _ := trivial
  reads _ := rfl

/-! ## Choices, lists and optional parts -/

/-- Names tell the values of a small type apart. -/
theorem codec_choice {α : Type} {all : List α} {name : α → String}
    (h : ∀ a, all.find? (fun b => name b == name a) = some a) :
    Codec (.choice (all.map name)) (fun a => .text (name a)) (choice? all name) where
  fits a := List.mem_map_of_mem (List.mem_of_find?_eq_some (h a))
  reads := h

namespace Codec

variable {α : Type} {shape : Shape} {toValue : α → Value} {ofValue? : Value → Option α}

theorem list (h : Codec shape toValue ofValue?) :
    Codec (.list shape) (.ofList toValue) (Value.list? ofValue?) where
  fits items := by
    intro v hv
    obtain ⟨a, -, rfl⟩ := List.mem_map.mp hv
    exact h.fits a
  reads items := by
    rw [Value.ofList, Value.list?]
    induction items with
    | nil => rfl
    | cons a items ih =>
      rw [List.map_cons, List.mapM_cons, h.reads, ih]
      rfl

/-- A part that is missing is null, and one that is there is not. -/
theorem fits_optional (h : Codec shape toValue ofValue?) (x : Option α) :
    Presence.optional.IsMissing (.ofOptional toValue x) ∨ shape.Fits (.ofOptional toValue x) := by
  cases x with
  | none => exact .inl ⟨rfl, rfl⟩
  | some a => exact .inr (h.fits a)

theorem reads_optional (h : Codec shape toValue ofValue?) (x : Option α) :
    (Value.ofOptional toValue x).optional? ofValue? = some x := by
  cases x with
  | none => rfl
  | some a =>
    have hread : (toValue a).optional? ofValue? = (ofValue? (toValue a)).map some := by
      have hne := (h.fits a).ne_null
      cases hv : toValue a <;> first | rfl | exact absurd hv hne
    rw [Value.ofOptional, hread, h.reads, Option.map_some]

end Codec

/-! ## Tiles -/

theorem TileKind.codec : Codec shape toValue ofValue? :=
  codec_choice fun k => by cases k <;> rfl

theorem Core.codec : Codec shape toValue ofValue? where
  fits c := by
    simp [shape, toValue, codec_text.fits_optional]
  reads c := by
    simp [toValue, ofValue?, codec_text.reads_optional]

theorem Tile.codec : Codec shape toValue ofValue? where
  fits t := by
    simp [shape, toValue, codec_byte.fits, TileKind.codec.fits_optional, Core.codec.fits_optional]
  reads t := by
    simp [toValue, ofValue?, codec_byte.reads, TileKind.codec.reads_optional,
      Core.codec.reads_optional]

/-! ## Memory -/

theorem Buffer.codec : Codec shape toValue ofValue? where
  fits b := by
    simp [shape, toValue, codec_text.fits, codec_byte.fits, codec_long.fits_optional,
      codec_word.fits]
  reads b := by
    simp [toValue, ofValue?, codec_text.reads, codec_byte.reads, codec_long.reads_optional,
      codec_word.reads]

theorem Lock.codec : Codec shape toValue ofValue? where
  fits l := by
    simp [shape, toValue, codec_text.fits, codec_byte.fits]
  reads l := by
    simp [toValue, ofValue?, codec_text.reads, codec_byte.reads]

/-! ## DMA programs -/

theorem BufferSlot.codec : Codec shape toValue ofValue? :=
  codec_choice fun s => by cases s <;> rfl

theorem Transfer.codec : Codec shape toValue ofValue? where
  fits t := by
    simp [shape, toValue, codec_text.fits, BufferSlot.codec.fits, codec_word.fits]
  reads t := by
    simp [toValue, ofValue?, codec_text.reads, BufferSlot.codec.reads, codec_word.reads]

theorem LockAction.codec : Codec shape toValue ofValue? :=
  codec_choice fun a => by cases a <;> rfl

theorem LockUse.codec : Codec shape toValue ofValue? where
  fits u := by
    simp [shape, toValue, codec_text.fits, LockAction.codec.fits, codec_word.fits]
  reads u := by
    simp [toValue, ofValue?, codec_text.reads, LockAction.codec.reads, codec_word.reads]

theorem PacketTag.codec : Codec shape toValue ofValue? where
  fits t := by
    simp [shape, toValue, codec_byte.fits]
  reads t := by
    simp [toValue, ofValue?, codec_byte.reads]

theorem DmaBlock.codec : Codec shape toValue ofValue? where
  fits b := by
    simp [shape, toValue, codec_text.fits, Transfer.codec.list.fits, LockUse.codec.list.fits,
      PacketTag.codec.fits_optional, codec_text.fits_optional]
  reads b := by
    simp [toValue, ofValue?, codec_text.reads, Transfer.codec.list.reads, LockUse.codec.list.reads,
      PacketTag.codec.reads_optional, codec_text.reads_optional]

theorem ChannelDirection.codec : Codec shape toValue ofValue? :=
  codec_choice fun d => by cases d <;> rfl

theorem ChannelStart.codec : Codec shape toValue ofValue? where
  fits s := by
    simp [shape, toValue, ChannelDirection.codec.fits, codec_byte.fits, codec_text.fits]
  reads s := by
    simp [toValue, ofValue?, ChannelDirection.codec.reads, codec_byte.reads, codec_text.reads]

theorem MemoryDma.codec : Codec shape toValue ofValue? where
  fits m := by
    simp [shape, toValue, codec_byte.fits, DmaBlock.codec.list.fits, ChannelStart.codec.list.fits]
  reads m := by
    simp [toValue, ofValue?, codec_byte.reads, DmaBlock.codec.list.reads,
      ChannelStart.codec.list.reads]

/-! ## Stream switches -/

theorem Bundle.codec : Codec shape toValue ofValue? :=
  codec_choice fun b => by cases b <;> rfl

theorem Port.codec : Codec shape toValue ofValue? where
  fits p := by
    simp [shape, toValue, Bundle.codec.fits, codec_byte.fits]
  reads p := by
    simp [toValue, ofValue?, Bundle.codec.reads, codec_byte.reads]

theorem Connect.codec : Codec shape toValue ofValue? where
  fits c := by
    simp [shape, toValue, Port.codec.fits]
  reads c := by
    simp [toValue, ofValue?, Port.codec.reads]

theorem Amsel.codec : Codec shape toValue ofValue? where
  fits a := by
    simp [shape, toValue, codec_text.fits, codec_byte.fits]
  reads a := by
    simp [toValue, ofValue?, codec_text.reads, codec_byte.reads]

theorem MasterSet.codec : Codec shape toValue ofValue? where
  fits m := by
    simp [shape, toValue, Port.codec.fits, codec_text.list.fits]
  reads m := by
    simp [toValue, ofValue?, Port.codec.reads, codec_text.list.reads]

theorem PacketRule.codec : Codec shape toValue ofValue? where
  fits r := by
    simp [shape, toValue, codec_byte.fits, codec_text.fits]
  reads r := by
    simp [toValue, ofValue?, codec_byte.reads, codec_text.reads]

theorem PacketTable.codec : Codec shape toValue ofValue? where
  fits t := by
    simp [shape, toValue, Port.codec.fits, PacketRule.codec.list.fits]
  reads t := by
    simp [toValue, ofValue?, Port.codec.reads, PacketRule.codec.list.reads]

theorem Switchbox.codec : Codec shape toValue ofValue? where
  fits s := by
    simp [shape, toValue, codec_byte.fits, Connect.codec.list.fits, Amsel.codec.list.fits,
      MasterSet.codec.list.fits, PacketTable.codec.list.fits]
  reads s := by
    simp [toValue, ofValue?, codec_byte.reads, Connect.codec.list.reads, Amsel.codec.list.reads,
      MasterSet.codec.list.reads, PacketTable.codec.list.reads]

theorem ShimMux.codec : Codec shape toValue ofValue? where
  fits m := by
    simp [shape, toValue, codec_byte.fits, Connect.codec.list.fits]
  reads m := by
    simp [toValue, ofValue?, codec_byte.reads, Connect.codec.list.reads]

/-! ## Devices -/

namespace Device

theorem codec : Codec shape toValue ofValue? where
  fits d := by
    simp [shape, toValue, codec_text.fits, codec_long.fits, Tile.codec.list.fits,
      Buffer.codec.list.fits, Lock.codec.list.fits, MemoryDma.codec.list.fits,
      Switchbox.codec.list.fits, ShimMux.codec.list.fits]
  reads d := by
    simp [toValue, ofValue?, codec_text.reads, codec_long.reads, Tile.codec.list.reads,
      Buffer.codec.list.reads, Lock.codec.list.reads, MemoryDma.codec.list.reads,
      Switchbox.codec.list.reads, ShimMux.codec.list.reads]

/-- No part of a design has two fields of one name. -/
theorem distinct_shape : shape.distinct = true := by
  decide

/-- A design comes back from its JSON document and from its YAML node, whichever fields are left out
there. The fields that can be left out are these, with what they stand for then. -/
theorem abridged_described (d : Device) (w : Value) (h : shape.Abridges d.toValue w) :
    Json.decode (Json.ofValue w) shape = .ok d.toValue ∧
      (∀ anchors left, (Yaml.decode anchors shape (Yaml.ofValue w)).run left =
        some (d.toValue, left)) ∧
      ofValue? d.toValue = some d ∧
      shape.defaults =
        [("Device", "schema_version", .text "1.0"), ("Device", "array_offset", .number 0),
          ("Tile", "kind", .null), ("Tile", "core", .null), ("Core", "elf_file", .null),
          ("Device", "buffers", .list []), ("Buffer", "address", .null),
          ("Buffer", "element_bits", .number 32), ("Device", "locks", .list []),
          ("Device", "mems", .list []), ("MemDma", "blocks", .list []),
          ("DmaBlock", "transfers", .list []), ("BdTransfer", "slot", .text "a"),
          ("BdTransfer", "offset", .number 0), ("DmaBlock", "locks", .list []),
          ("DmaBlock", "packet", .null), ("DmaBlock", "next", .null),
          ("MemDma", "starts", .list []), ("Device", "switchboxes", .list []),
          ("Switchbox", "connects", .list []), ("Switchbox", "amsels", .list []),
          ("Switchbox", "master_sets", .list []), ("Switchbox", "packet_rules", .list []),
          ("Device", "shim_muxes", .list []), ("ShimMux", "row", .number 0),
          ("ShimMux", "connects", .list [])] := by
  have hfits := codec.fits d
  refine ⟨Json.decode_ofValue distinct_shape hfits h, fun anchors left => ?_, codec.reads d, rfl⟩
  rw [Yaml.decode_ofValue distinct_shape hfits h]
  rfl

def refill : Device where
  schemaVersion := "1.0"
  name := "refill"
  arrayOffset := 0
  tiles := [{ column := 7, row := 3, declaredKind := none, core := some { programFile := none } }]
  buffers := [{ name := "inbox", column := 7, row := 3, address := none, elementBits := 32 }]
  locks := []
  memories :=
    [{ column := 7
       row := 3
       blocks :=
         [{ label := "fill"
            transfers := [{ buffer := "inbox", slot := .a, offset := 0, length := 64 }]
            locks := []
            packet := none
            next := some "fill" }]
       starts := [{ direction := .s2mm, channel := 1, block := "fill" }] }]
  switchboxes := []
  shimMuxes := [{ column := 7, row := 0, connects := [] }]

/-- Short data for this design. Only the kind of the tile need not be there. -/
def refillShort : Value :=
  .record
    [("name", .text "refill"),
      ("tiles", .list
        [.record
          [("col", .number 7), ("row", .number 3), ("kind", .null), ("core", .record [])]]),
      ("buffers", .list
        [.record [("name", .text "inbox"), ("col", .number 7), ("row", .number 3)]]),
      ("mems", .list
        [.record
          [("col", .number 7), ("row", .number 3),
            ("blocks", .list
              [.record
                [("label", .text "fill"),
                  ("transfers", .list [.record [("buffer", .text "inbox"), ("len", .number 64)]]),
                  ("next", .text "fill")]]),
            ("starts", .list
              [.record
                [("direction", .text "s2mm"), ("channel", .number 1), ("block", .text "fill")]])]]),
      ("shim_muxes", .list [.record [("col", .number 7)]])]

theorem refill_described :
    shape.Abridges refill.toValue refillShort ∧
      Json.decode (Json.ofValue refillShort) shape = .ok refill.toValue ∧
      (Yaml.decode [] shape (Yaml.ofValue refillShort)).run 0 = some (refill.toValue, 0) ∧
      ofValue? refill.toValue = some refill := by
  have short : shape.Abridges refill.toValue refillShort := by
    refine .record (.leftOut rfl (.kept .same (.leftOut rfl (.kept (.of_forall₂ (.cons ?tile .nil))
      (.kept (.of_forall₂ (.cons ?buffer .nil)) (.leftOut rfl (.kept
        (.of_forall₂ (.cons (.record (.kept .same (.kept .same (.kept
          (.of_forall₂ (.cons ?block .nil)) (.kept .same .done))))) .nil))
        (.leftOut rfl (.kept (.of_forall₂ (.cons ?mux .nil)) .done)))))))))
    case tile =>
      exact .record (.kept .same (.kept .same (.kept .same
        (.kept (.record (.leftOut rfl .done)) .done))))
    case buffer =>
      exact .record (.kept .same (.kept .same (.kept .same (.leftOut rfl (.leftOut rfl .done)))))
    case block =>
      have transfer : Transfer.shape.Abridges (Transfer.toValue ⟨"inbox", .a, 0, 64⟩)
          (.record [("buffer", .text "inbox"), ("len", .number 64)]) :=
        .record (.kept .same (.leftOut rfl (.leftOut rfl (.kept .same .done))))
      exact .record (.kept .same (.kept (.of_forall₂ (.cons transfer .nil))
        (.leftOut rfl (.leftOut rfl (.kept .same .done)))))
    case mux =>
      exact .record (.kept .same (.leftOut rfl (.leftOut rfl .done)))
  obtain ⟨document, node, read, -⟩ := abridged_described refill refillShort short
  exact ⟨short, document, node [] 0, read⟩

end Device
end ArrayImage
