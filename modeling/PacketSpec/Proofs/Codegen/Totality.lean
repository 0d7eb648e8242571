import PacketSpec.BitWindow
import PacketSpec.Codegen.Unit
import PacketSpec.Proofs.Codec.Decoding
import PacketSpec.Proofs.Codegen.EncodedSize
import PacketSpec.Proofs.Codegen.Identifiers

/-! The generators stop at fields that they have no code for. The fields of a well formed structure
are not among them, if their names have tokens. -/
namespace PacketSpec.Codegen

open Codec (Segment layout layout_fields layout_planned fields_chunkOf)

theorem ident_succeeds {name : String} (named : Named name) : Succeeds (ident name) := ⟨_, named⟩

theorem integerName_succeeds {width : Nat} (narrow : width ≤ 64) (signed : Bool) :
    Succeeds (integerName width signed) := by
  have bits : Succeeds (integerWidth width) := by
    unfold integerWidth
    split
    · exact .pure _
    · split
      · exact .pure _
      · split
        · exact .pure _
        · exact .pure _
  exact bits.bind fun _ _ => .pure _

theorem integer_succeeds {width : Nat} (narrow : width ≤ 64) (signed : Bool) :
    Succeeds (integer width signed) :=
  (integerName_succeeds narrow signed).bind fun _ _ => .pure _

theorem getInteger_succeeds {width : Nat} (narrow : width ≤ 64) (signed : Bool) :
    Succeeds (getInteger width signed) :=
  (integerName_succeeds narrow signed).bind fun _ _ => .pure _

theorem putInteger_succeeds {width : Nat} (narrow : width ≤ 64) (signed : Bool) (value : Code) :
    Succeeds (putInteger width signed value) :=
  (integerName_succeeds narrow signed).bind fun _ _ => .pure _

structure Ready (s : Struct) (field : Field) : Prop extends Encodable s field where
  structs : ∀ typeId, field.shape = .struct typeId → Named typeId
  enums : ∀ typeId, field.shape = .enum typeId → Named typeId
  decodable : ∀ index, field.repetition = .fieldRef index →
    ∃ count, decoderCount s index = .ok count

namespace Ready

variable {s : Struct} {field : Field} (ready : Ready s field)

include ready

/-- Numbers have at most 64 bits. -/
theorem narrow (number : field.shape.isScalar = true ∨ field.shape.isEnum = true ∨
    field.shape = .descriptor) : field.width ≤ 64 := by
  have admits := ready.formed.shape
  unfold Shape.Admits at admits
  split at admits <;> grind [Shape.isScalar, Shape.isEnum]

theorem wireBits?_succeeds : Succeeds field.wireBits? := by
  have measured := ready.measured
  unfold Field.wireBits?
  split
  · exact .pure _
  · exact .pure _
  · next code shape _ =>
    exact .map _ ⟨_, Size.sub_eq_ok.mpr ⟨rfl, measured.parity code shape⟩⟩
  · next count repetition header sized =>
    refine .map _ ⟨_, Size.check_of_lt ?_⟩
    have small := measured.bits (by cases shape : field.shape <;> simp_all [Shape.isParity])
    simpa [repetition, Repetition.constantCount] using small
  · exact .pure _

/-- A field outside chunks is no bit field. -/
theorem not_bitfield (wide : field.isPacked = false) : field.shape ≠ .bitfield := by
  intro shape
  have admits := ready.formed.shape
  simp [shape, Shape.Admits] at admits
  simp [Field.isPacked, shape] at wide
  omega

theorem elementType_succeeds (stored : field.isStored = true) : Succeeds (elementType field) := by
  unfold elementType
  split
  · exact .pure _
  · split
    · next shape => exact integer_succeeds (ready.narrow (by simp [shape, Shape.isScalar])) _
    · exact .pure _
    · exact .pure _
    · exact .pure _
    · exact .pure _
    · next shape => exact ident_succeeds (ready.structs _ shape)
    · next shape => exact ident_succeeds (ready.enums _ shape)
    · exact .pure _
    · next shape => simp [Field.isStored, shape] at stored
    · next shape => simp [Field.isStored, shape, Shape.isParity] at stored
    · next shape => simp [Field.isStored, shape] at stored

theorem fieldType_succeeds (stored : field.isStored = true) : Succeeds (fieldType field) := by
  refine (ready.elementType_succeeds stored).bind fun element _ => ?_
  split
  · exact .pure _
  · exact .pure _
  · split
    · exact .pure _
    · exact .pure _

theorem encodeElement_succeeds (element : field.shape.isElement = true) (value : Code) :
    Succeeds (encodeElement s field value) := by
  unfold encodeElement
  split
  · next shape => exact putInteger_succeeds (ready.narrow (by simp [shape, Shape.isScalar])) _ _
  · exact .pure _
  · exact .pure _
  · next shape =>
    have narrow := ready.narrow (by simp [shape, Shape.isEnum])
    refine (integer_succeeds narrow false).bind fun _ _ => ?_
    exact (putInteger_succeeds narrow false _).bind fun _ _ => .pure _
  · cases shape : field.shape <;> simp_all [Shape.isElement]

theorem encodeElements_succeeds (element : field.shape.isElement = true) (held : Code) :
    Succeeds (encodeElements s field held) := by
  unfold encodeElements
  split
  · exact ready.encodeElement_succeeds element held
  · exact (ready.encodeElement_succeeds element _).bind fun _ _ => .pure _

theorem encodeStatements_succeeds (wide : field.isPacked = false) (held : Code) :
    Succeeds (encodeStatements s field held) := by
  unfold encodeStatements
  split
  · next shape =>
    have narrow := ready.narrow (by simp [shape, Shape.isScalar])
    split
    · exact putInteger_succeeds narrow _ _
    · split
      · exact (integer_succeeds narrow _).bind fun _ _ => putInteger_succeeds narrow _ _
      · split
        · exact .pure _
        · exact ready.encodeElements_succeeds (by simp [shape, Shape.isElement]) held
  · next shape => exact ready.encodeElements_succeeds (by simp [shape, Shape.isElement]) held
  · next shape => exact ready.encodeElements_succeeds (by simp [shape, Shape.isElement]) held
  · next shape => exact ready.encodeElements_succeeds (by simp [shape, Shape.isElement]) held
  · exact .pure _
  · exact .pure _
  · next shape =>
    split
    · exact putInteger_succeeds (ready.narrow (by simp [shape])) _ _
    · split
      · exact .pure _
      · split
        · exact .pure _
        · exact .pure _
  · split
    · next repetition => exact Succeeds.bind (ready.counted _ repetition) fun _ _ => .pure _
    · exact ready.wireBits?_succeeds.bind fun _ _ => .pure _
  · exact .pure _
  · exact .pure _
  · next shape => exact absurd shape (ready.not_bitfield wide)

theorem countCheck_succeeds (held : Code) : Succeeds (countCheck s field held) := by
  unfold countCheck
  split
  · next repetition =>
    split
    · exact .pure _
    · exact Succeeds.bind (ready.counted _ repetition) fun _ _ => .pure _
  · exact .pure _

theorem encodeField_succeeds (wide : field.isPacked = false) (draft : EncoderDraft) :
    Succeeds (encodeField s draft field) := by
  rw [encodeField, if_neg (by simp [wide])]
  refine (ident_succeeds ready.named).bind fun id known => ?_
  obtain rfl := Except.ok.inj (known.symm.trans ready.named)
  refine Succeeds.bind ⟨_, encodeSize_eq ready.measured ready.counted⟩ fun draft _ => ?_
  refine (ready.countCheck_succeeds _).bind fun _ _ => ?_
  exact (ready.encodeStatements_succeeds wide _).bind fun _ _ => .pure _

theorem decodeElement_succeeds (element : field.shape.isElement = true) :
    Succeeds (decodeElement field) := by
  unfold decodeElement
  split
  · next shape => exact getInteger_succeeds (ready.narrow (by simp [shape, Shape.isScalar])) _
  · exact .pure _
  · next shape => exact (ident_succeeds (ready.structs _ shape)).bind fun _ _ => .pure _
  · next shape =>
    refine (ident_succeeds (ready.enums _ shape)).bind fun _ _ => ?_
    exact (getInteger_succeeds (ready.narrow (by simp [shape, Shape.isEnum])) _).bind
      fun _ _ => .pure _
  · cases shape : field.shape <;> simp_all [Shape.isElement]

theorem decodeElements_succeeds (element : field.shape.isElement = true) (id : Code) :
    Succeeds (decodeElements s field id) := by
  refine (ready.decodeElement_succeeds element).bind fun get _ => ?_
  split
  · exact .pure _
  · split
    · exact .pure _
    · exact .pure _
  · next repetition =>
    refine Succeeds.bind (ready.decodable _ repetition) fun count _ => ?_
    split
    · exact .pure _
    · exact .pure _

theorem decodeStruct_succeeds (id typeId : Code) : Succeeds (decodeStruct s field id typeId) := by
  unfold decodeStruct
  split
  · exact .pure _
  · exact .pure _
  · next repetition => exact Succeeds.bind (ready.decodable _ repetition) fun _ _ => .pure _

theorem decodeDescriptor_succeeds (shape : field.shape = .descriptor) (id : Code) :
    Succeeds (decodeDescriptor s field id) := by
  unfold decodeDescriptor
  split
  · split
    · exact .pure _
    · exact (getInteger_succeeds (ready.narrow (by simp [shape])) _).bind fun _ _ => .pure _
  · split
    · exact .pure _
    · split
      · exact .pure _
      · exact .pure _

theorem decodeStatements_succeeds (wide : field.isPacked = false) (id : Code) :
    Succeeds (decodeStatements s field id) := by
  unfold decodeStatements
  split
  · next shape =>
    have narrow := ready.narrow (by simp [shape, Shape.isScalar])
    split
    · exact (getInteger_succeeds narrow _).bind fun _ _ => .pure _
    · split
      · exact (getInteger_succeeds narrow _).bind fun _ _ => .pure _
      · exact ready.decodeElements_succeeds (by simp [shape, Shape.isElement]) id
  · next shape =>
    exact (ident_succeeds (ready.structs _ shape)).bind fun _ _ => ready.decodeStruct_succeeds id _
  · next shape => exact ready.decodeElements_succeeds (by simp [shape, Shape.isElement]) id
  · next shape => exact ready.decodeElements_succeeds (by simp [shape, Shape.isElement]) id
  · exact .pure _
  · exact .pure _
  · next shape => exact ready.decodeDescriptor_succeeds shape id
  · split
    · next repetition => exact Succeeds.bind (ready.decodable _ repetition) fun _ _ => .pure _
    · exact ready.wireBits?_succeeds.bind fun _ _ => .pure _
  · exact .pure _
  · next shape =>
    split
    · exact .pure _
    · next count repetition =>
      have small := ready.measured.bits (by simp [shape, Shape.isParity])
      rw [repetition, Repetition.constantCount, Nat.mul_comm] at small
      exact Succeeds.bind ⟨_, Size.check_of_lt small⟩ fun _ _ => .pure _
    · next repetition => exact Succeeds.bind (ready.decodable _ repetition) fun _ _ => .pure _
  · next shape => exact absurd shape (ready.not_bitfield wide)

theorem decodeField_succeeds (wide : field.isPacked = false) (draft : DecoderDraft) :
    Succeeds (decodeField s draft field) := by
  rw [decodeField, if_neg (by simp [wide])]
  refine (ident_succeeds ready.named).bind fun id _ => ?_
  exact (ready.decodeStatements_succeeds wide id).bind fun _ _ => .pure _

theorem decodePacked_succeeds (width shift : Nat) :
    Succeeds (decodePacked s ⟨field, width, shift⟩) := by
  unfold decodePacked
  refine (ident_succeeds ready.named).bind fun id _ => ?_
  split
  · exact .pure _
  · next shape => exact (ident_succeeds (ready.enums _ shape)).bind fun _ _ => .pure _
  · exact .pure _

end Ready

section Segments

variable {s : Struct} {window : Nat} {segment : Segment}

/-- A chunk is not wider than the window. -/
theorem chunk_width_le {fields : List Field}
    (completes : BitWindow.Completes window (fields.map Field.width)) :
    (BitWindow.chunkOf (widthsOf fields)).width ≤ window := by
  have room := completes.room
  have sum : (fields.map Field.width).sum = BitWindow.widthOf (widthsOf fields) := by
    simp [BitWindow.widthOf, widthsOf, Function.comp_def]
  rwa [sum] at room

theorem encodeSegment_succeeds (planned : segment.Planned window) (narrow : window ≤ 64)
    (ready : ∀ field ∈ segment.fields, Ready s field) (draft : EncoderDraft) :
    Succeeds (encodeSegment s draft segment) := by
  cases segment with
  | chunk shared =>
    obtain ⟨fields, rfl, -, completes⟩ := planned
    have fits := Nat.le_trans (chunk_width_le completes) narrow
    refine (integer_succeeds fits false).bind fun _ _ => ?_
    exact (putInteger_succeeds fits false _).bind fun _ _ => .pure _
  | aligned field => exact (ready field (.head _)).encodeField_succeeds planned draft

theorem decodeSegment_succeeds (planned : segment.Planned window) (narrow : window ≤ 64)
    (ready : ∀ field ∈ segment.fields, Ready s field) (draft : DecoderDraft) :
    Succeeds (decodeSegment s draft segment) := by
  cases segment with
  | chunk shared =>
    obtain ⟨fields, rfl, -, completes⟩ := planned
    have fits := Nat.le_trans (chunk_width_le completes) narrow
    refine Succeeds.bind ?_ fun _ _ => .pure _
    refine (getInteger_succeeds fits false).bind fun _ _ => Succeeds.bind ?_ fun _ _ => .pure _
    refine Succeeds.mapM fun packed member => ?_
    exact (ready packed.symbol (List.mem_map_of_mem member)).decodePacked_succeeds _ _
  | aligned field => exact (ready field (.head _)).decodeField_succeeds planned draft

end Segments

end PacketSpec.Codegen
