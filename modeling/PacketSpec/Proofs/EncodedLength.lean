import PacketSpec.Proofs.Codec.Length
import PacketSpec.Proofs.Codegen.WriterCalls

/-! Three accounts of a structure's bytes agree: the bits that the specification gives its fields,
the size that its encoder announces, and the bytes that its encoder writes. -/
namespace PacketSpec

open Wire Format

def Wire.LdpcEncoder.OfMatrices (encoder : LdpcEncoder) : Prop :=
  (∃ matrix : ParityMatrix, encoder = matrix.encoder) ∨
    ∃ matrices, encoder = ParityMatrix.encoderOfList matrices

/-- Parity matrices never ask for more room. -/
theorem Wire.LdpcEncoder.OfMatrices.not_answers {encoder : LdpcEncoder} {wanted available : Nat}
    (made : encoder.OfMatrices) : ¬ encoder.Answers (.bufferTooSmall wanted available) := by
  intro answers
  rcases made with ⟨matrix, rfl⟩ | ⟨matrices, rfl⟩
  · obtain ⟨code, other⟩ := ParityMatrix.encoder_answers answers
    cases other
  · obtain ⟨code, other⟩ := ParityMatrix.encoderOfList_answers answers
    cases other

namespace Codec

variable {model : Model} {encoders : String → Option Encoder} {measures : String → Option Measure}
  {bits : String → Value → List Bool} {typed : String → Value → Bool} {s : Struct}
  {record : Record} {field : Field}

/-- A field has the bits that are known of it in advance, or its size depends on the value. -/
theorem TypedField.length_fixed
    (typedField : TypedField model encoders measures bits typed s record field)
    (fixed : field.varies = false) :
    (fieldBits bits s record field).length = field.staticBits := by
  by_cases header : field.shape = .payload
  · simp [fieldBits, Field.staticBits, header]
  · have flat : field.shape.isStruct = false := by
      cases shape : field.shape <;> simp_all [Field.varies, Shape.isStruct]
    have known : ∀ index, field.repetition ≠ .fieldRef index := by
      intro index repetition
      cases shape : field.shape <;> simp_all [Field.varies]
    exact typedField.length_static flat header known

theorem length_structBits {fields : List Field}
    (typedFields : ∀ field ∈ fields, TypedField model encoders measures bits typed s record field) :
    (fields.flatMap (fieldBits bits s record)).length =
      staticBitsOf fields +
        ((fields.filter Field.varies).flatMap (fieldBits bits s record)).length := by
  induction fields with
  | nil => rfl
  | cons field rest ih =>
    have others := ih fun other member => typedFields other (.tail _ member)
    rw [List.flatMap_cons, List.length_append, staticBitsOf, others, List.filter_cons]
    cases varies : field.varies with
    | false =>
      have own := (typedFields field (.head _)).length_fixed varies
      simp
      omega
    | true =>
      have own := Field.staticBits_of_varies varies
      simp
      omega

end Codec

/-- A value has the bits of its header and those of the fields whose size depends on it. -/
theorem Model.length_wireBits {model : Model} {window : Nat} {s : Struct} {record : Record}
    (formed : model.WellFormed window) (made : ∀ s ∈ model.structs, s.Made)
    (member : s ∈ model.structs) (right : model.hasType s.id (.record record) = true) :
    (model.wireBits s.id (.record record)).length = s.sizeBits +
      ((s.fields.filter Field.varies).flatMap (fieldBits model.wireBits s record)).length := by
  obtain ⟨earlier, later, place⟩ := List.append_of_mem member
  have sound := formed.structs earlier s later place
  have length := Codec.length_structBits (formed.typedFields made place right)
  rw [formed.wireBits_record member, formed.flatMap_wireBits place fun _ member => member,
    formed.flatMap_wireBits place fun _ member => (List.mem_filter.mp member).1, sound.sizeBits,
    length]

/-- The bits of a structure's header fill whole bytes, and the size that its encoder computes starts
with them. The encoder makes the calls by which the structure is written. A value takes as many bytes
of any writer as its size says, wherever the cursor stands. A writer with so many bytes left is never
too small, if it has no parity encoder or one made of parity matrices; any other parity encoder can
only give that answer itself. -/
theorem encode_spends_encodedSize {document : Document} {window : Nat} {source : String}
    {model : Model} {s : Struct} (accepted : analyze document window source = .ok model)
    (member : s ∈ model.structs) :
    s.sizeBits % 8 = 0 ∧
    (∀ text, Codegen.encodeImpl window s = .ok text → ∃ name statements, text =
      Codegen.encoderText name (Codegen.joinWith '+'
        (Codegen.number s.headerSize :: Codegen.variableSizes s s.fields)) statements) ∧
    s.EncoderAgrees model window ∧
    ∀ record, model.hasType s.id (.record record) = true → ∃ size,
      model.encodedSize window s.id (.record record) = Size.check size ∧
      size = s.headerSize +
        ((s.fields.filter Field.varies).flatMap (fieldBits model.wireBits s record)).length / 8 ∧
      ∀ writer : Writer,
        (∀ after, (model.encode window s.id (.record record)).run writer = .ok (.ok (), after) →
          size ≤ writer.remaining ∧ after.offset = writer.offset + size) ∧
        ∀ wanted available after, size ≤ writer.remaining →
          ((∀ encoder ∈ writer.ldpc, encoder.OfMatrices) →
            (model.encode window s.id (.record record)).run writer ≠
              .ok (.error (.bufferTooSmall wanted available), after)) ∧
          ((model.encode window s.id (.record record)).run writer =
              .ok (.error (.bufferTooSmall wanted available), after) →
            ∃ encoder ∈ writer.ldpc, encoder.Answers (.bufferTooSmall wanted available)) := by
  have formed : model.WellFormed window :=
    { coherent_of_analyze accepted with names := names_of_analyze accepted }
  have made := (made_of_analyze accepted).structs
  obtain ⟨earlier, later, place⟩ := List.append_of_mem member
  have sound := formed.structs earlier s later place
  obtain ⟨segments, laid⟩ := sound.laid
  have whole : s.sizeBits % 8 = 0 := by
    rw [sound.sizeBits]
    exact Codec.staticBitsOf_whole laid sound.fields.each
  refine ⟨whole, fun text => Codegen.encodeImpl_size sound (made s member), sound.encoderAgrees, ?_⟩
  intro record right
  have accounts := Model.encode_accounts formed made member right
  have length := Model.length_wireBits formed made member right
  refine ⟨_, accounts.measured, ?_, fun writer => ⟨fun after run => ?_, ?_⟩⟩
  · rw [length, Struct.headerSize]
    omega
  · have advances := accounts.spends.done run
    exact ⟨advances.room, advances.offset⟩
  · intro wanted available after room
    refine ⟨fun matrices run => ?_, accounts.spends.short room⟩
    obtain ⟨encoder, known, answers⟩ := accounts.spends.short room run
    exact (matrices encoder known).not_answers answers

/-- The sample packet takes fourteen bytes, here behind three others. -/
theorem encode_sampleRecord_spends :
    sampleModel.hasType sampleStruct.id (.record sampleRecord) = true ∧
      ∃ after, (sampleModel.encode 32 sampleStruct.id (.record sampleRecord)).run
        { buffer := List.replicate 20 0xff, offset := 3 } = .ok (.ok (), after) ∧
      after.offset = 17 := by
  have right : sampleModel.hasType sampleStruct.id (.record sampleRecord) = true := by
    decide +kernel
  have known : (sampleModel.encodedSize 32 sampleStruct.id (.record sampleRecord)).toOption =
      some 14 := by decide +kernel
  have written : (((sampleModel.encode 32 sampleStruct.id (.record sampleRecord)).run
      { buffer := List.replicate 20 0xff, offset := 3 }).toOption.bind fun outcome =>
        outcome.1.toOption) = some () := by decide +kernel
  obtain ⟨size, measured, -, spends⟩ :=
    (encode_spends_encodedSize analyze_sample sampleStruct_mem).2.2.2 sampleRecord right
  obtain rfl : size = 14 := by
    rw [measured, Size.check] at known
    split at known
    · exact Option.some.inj known
    · cases known
  refine ⟨right, ?_⟩
  rcases outcome : (sampleModel.encode 32 sampleStruct.id (.record sampleRecord)).run
    { buffer := List.replicate 20 0xff, offset := 3 } with fault | ⟨refused | _, after⟩
  · rw [outcome] at written
    cases written
  · rw [outcome] at written
    cases written
  · exact ⟨after, rfl, ((spends _).1 after outcome).2⟩

/-- An encoder that finds no room for any parity. -/
def Wire.LdpcEncoder.cramped : LdpcEncoder where
  parity _ _ size := .error (.bufferTooSmall size 0)
  length_parity _ _ _ _ answer := by cases answer

def sealDocument : Document where
  ranges := [⟨"'0x0001'", "#seal"⟩]
  structs := [("0x0001", [
    ⟨"u(16)", "seal_descriptor", "'0x0001'"⟩,
    ⟨"b(64)", "parity", "LDPC(80, 16)"⟩])]

def sealStruct : Struct where
  key := "0x0001"
  id := "Seal"
  kind := "seal"
  role := .packet
  fields := [
    ⟨"seal_descriptor", .descriptor, 16, .none, some 1, false⟩,
    ⟨"parity", .parity ⟨80, 16⟩, 64, .none, none, false⟩]
  sizeBits := 80
  descriptor := some 1

def sealModel : Model where
  source := "seal"
  structs := [sealStruct]
  descriptors := ⟨[("seal", 1)]⟩

/-- The packet fits a writer of its size, and is refused for want of room all the same. -/
theorem seal_finds_no_room :
    analyze sealDocument 32 "seal" = .ok sealModel ∧
    sealModel.hasType sealStruct.id (.record []) = true ∧
    sealModel.encodedSize 32 sealStruct.id (.record []) = .ok 10 ∧
    ∃ after, (sealModel.encode 32 sealStruct.id (.record [])).run
      { buffer := List.replicate 10 0, ldpc := some LdpcEncoder.cramped } =
        .ok (.error (.bufferTooSmall 8 0), after) :=
  ⟨ok_of_toOption (by decide +kernel), by decide +kernel, ok_of_toOption (by decide +kernel),
    _, rfl⟩

end PacketSpec
