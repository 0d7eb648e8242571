import PacketSpec.Proofs.Codegen.WriterCalls

/-! The bits of an encoded value are those of its fields in order, each as the format has it, and so
for the values nested in it. How the fields are packed in the window does not show. -/
namespace PacketSpec

open Wire Format

/-- The bytes of a value have the bits of its fields, and the generated encoder makes the calls that
write them. -/
theorem bits_of_encodeToBytes {document : Document} {window : Nat} {source : String}
    {model : Model} {s : Struct} {value : Value} {bytes : Bytes}
    (accepted : analyze document window source = .ok model) (member : s ∈ model.structs)
    (encoded : model.encodeToBytes window s.id value = .ok (.ok bytes)) :
    (∃ record, value = .record record ∧
      bitsOfBytes bytes = s.fields.flatMap (fieldBits model.wireBits s record) ∧
      bitsOfBytes bytes = model.wireBits s.id value) ∧
    s.EncoderAgrees model window := by
  have formed : model.WellFormed window :=
    { coherent_of_analyze accepted with names := names_of_analyze accepted }
  obtain ⟨bits, fits⟩ := Model.encodeToBytes_bits formed encoded
  obtain ⟨earlier, later, place⟩ := List.append_of_mem member
  refine ⟨?_, (formed.structs earlier s later place).encoderAgrees⟩
  rw [Model.fits, Model.everyRecord, formed.meaningOr_self place] at fits
  cases value with
  | record record =>
    exact ⟨record, rfl, bits.trans (formed.wireBits_record member record), bits⟩
  | _ => cases fits

/-- The calls of the sample packet: its descriptor, one chunk, the sequence number, a structure for
each entry, a gap, the other descriptor and a length. -/
theorem bits_of_sampleBytes :
    (∃ record, Value.record sampleRecord = .record record ∧
      bitsOfBytes sampleBytes =
        sampleStruct.fields.flatMap (fieldBits sampleModel.wireBits sampleStruct record) ∧
      bitsOfBytes sampleBytes = sampleModel.wireBits sampleStruct.id (.record sampleRecord)) ∧
    ∃ writer, Codegen.encodeImpl 32 sampleStruct = .ok writer ∧
      Codegen.usesOf "w" writer = [.method "put_u16", .method "put_u8", .method "put_u16",
        .passedOn, .method "put_zeros", .method "put_u32", .method "put_u8"] := by
  obtain ⟨bits, segments, laid, calls, -⟩ :=
    bits_of_encodeToBytes analyze_sample sampleStruct_mem encodeToBytes_sample
  obtain ⟨writer, generated⟩ : Succeeds (Codegen.encodeImpl 32 sampleStruct) := by decide +kernel
  refine ⟨bits, writer, generated, ?_⟩
  have known : ((Codec.layout 32 sampleStruct).toOption.map fun segments =>
      segments.flatMap fun segment => segment.access.call.puts) =
      some [.method "put_u16", .method "put_u8", .method "put_u16", .passedOn,
        .method "put_zeros", .method "put_u32", .method "put_u8"] := by
    decide +kernel
  rw [laid] at known
  exact (calls writer generated).trans (Option.some.inj known)

end PacketSpec
