import PacketSpec.Proofs.Codec.Declared
import PacketSpec.Proofs.Codec.Keeping

/-!
What a parity protects. Its code says how many bytes right before it are the message, and that is
what the rows since the parity before it declare. Where a field takes other bytes than declared, the
message begins too early or too late.
-/
namespace PacketSpec

open Wire Encode Format

/-- A parity, with the fields since the one before it or since the start of the structure. -/
structure Struct.Protects (s : Struct) (front covered : List Field) (field : Field)
    (code : LdpcCode) : Prop where
  place : ∃ back, s.fields = front ++ (covered ++ field :: back)
  shape : field.shape = .parity code
  plain : ∀ other ∈ covered, other.shape.isParity = false
  starts : ∀ last ∈ front.getLast?, last.shape.isParity = true

/-- A parity that was written is what the encoder answers for the bytes before it. -/
theorem Wire.Writer.parity_answer {code : LdpcCode} {encoder : LdpcEncoder}
    {writer next final : Writer} (known : writer.ldpc = some encoder)
    (aligned : code.isByteAligned = true) (run : (Writer.parity code).run writer = (.ok (), next))
    (continues : next.Continues final) :
    writer.Continues final ∧ writer.offset ≤ writer.buffer.length ∧
    code.messageBits / 8 ≤ writer.offset ∧
    encoder.parity code
        (final.bytesAt (writer.offset - code.messageBits / 8) (code.messageBits / 8))
        (code.parityBits / 8) =
      .ok (final.bytesAt writer.offset (code.parityBits / 8)) := by
  have ended := Writer.parity_end code writer
  rw [run] at ended
  cases ended with
  | @written parity size room behind answer =>
    simp only [LdpcCode.isByteAligned, Bool.and_eq_true, decide_eq_true_eq, beq_iff_eq] at aligned
    have positive : 0 < code.parityBits / 8 := by
      have := aligned.2
      simp only [LdpcCode.parityBits] at this ⊢
      omega
    -- room for a parity that is not empty, so the cursor is in the buffer
    have fits : writer.offset + parity.length ≤ writer.buffer.length := by
      rw [Writer.remaining] at room
      omega
    have whole := (Writer.continues_append room).trans continues
    refine ⟨whole, by omega, behind, ?_⟩
    rw [whole.bytesAt (by omega), answer encoder known, ← size, continues.bytesAt (by simp),
      Writer.bytesAt_append fits]

section Run

variable {model : Model} {window : Nat} {s : Struct} {record : Record} {before after : List Field}
  {field : Field} (formed : model.WellFormed window) (made : ∀ s ∈ model.structs, s.Made)
  (member : s ∈ model.structs) (right : model.hasType s.id (.record record) = true)
  (place : s.fields = before ++ field :: after)

include formed made member right place

/-- The segments before that of a field outside chunks write the fields before it. -/
theorem Model.WellFormed.fills_before (wide : field.isPacked = false) :
    ∃ earlier later front back, model.structs = earlier ++ s :: later ∧
      Codec.layout window s = .ok (front ++ .aligned field :: back) ∧
      Codec.Fills (front.forM (Codec.encodeSegment
          (meaningIn? (Codec.encodeStruct window) earlier.reverse) s record))
        (before.flatMap (fieldBits model.wireBits s record)) := by
  obtain ⟨earlier, later, among⟩ := List.append_of_mem member
  have sound := formed.structs earlier s later among
  obtain ⟨segments, laid⟩ := sound.laid
  obtain ⟨whole, sounds⟩ := Codec.layout_fields laid
  obtain ⟨front, back, rfl, rfl, rfl⟩ := Codec.segments_around sounds (whole.trans place) wide
  have accounts := Codec.encodeSegments_accounts (formed.typedFields made among right)
    (sound.sizeBits ▸ (made s member).sizeBits) laid
  refine ⟨earlier, later, front, back, among, laid, ?_⟩
  rw [formed.flatMap_wireBits among fun other inside => by simp [place, inside]]
  exact accounts.toFills

/-- A parity meets the writer right behind the fields before it. What is written later leaves it. -/
theorem Model.WellFormed.parity_reached {code : LdpcCode} {writer final : Writer}
    (shape : field.shape = .parity code)
    (run : (model.encode window s.id (.record record)).run writer = .ok (.ok (), final)) :
    ∃ reached next, writer.Advances
        ((before.flatMap (fieldBits model.wireBits s record)).length / 8) reached ∧
      (Writer.parity code).run reached = (.ok (), next) ∧ next.Continues final := by
  obtain ⟨earlier, later, front, back, among, laid, fills⟩ := formed.fills_before made member right
    place (by simp [Field.isPacked, shape, Shape.isEnum])
  rw [formed.encode_eq among, Codec.encodeStruct, laid] at run
  change (forM (front ++ .aligned field :: back) (Codec.encodeSegment _ s record)).run writer = _
    at run
  rw [List.forM_append] at run
  obtain ⟨_, reached, first, run⟩ := run_bind_eq_ok.mp run
  rw [List.forM_cons] at run
  obtain ⟨_, next, own, others⟩ := run_bind_eq_ok.mp run
  have written : Codec.encodeSegment (meaningIn? (Codec.encodeStruct window) earlier.reverse) s
      record (.aligned field) = write (Writer.parity code) := by
    simp [Codec.encodeSegment, Codec.encodeAligned, Codec.encodeImplied, Field.isStored, shape,
      Shape.isParity]
  rw [written] at own
  exact ⟨reached, next, fills.spends.done first, Except.ok.inj own,
    keeps_forM (Codec.encodeSegment_keeps Codec.meaningIn?_keeps) others⟩

end Run

section Protected

variable {model : Model} {window : Nat} {s : Struct} {record : Record}
  {front covered : List Field} {field : Field} {code : LdpcCode}
  (formed : model.WellFormed window) (made : ∀ s ∈ model.structs, s.Made)
  (member : s ∈ model.structs) (right : model.hasType s.id (.record record) = true)
  (protects : s.Protects front covered field code)

include formed made member right protects

/-- The fields up to the parity before fill bytes, and so do those since then. -/
theorem Struct.Protects.whole :
    (front.flatMap (fieldBits model.wireBits s record)).length % 8 = 0 ∧
      (covered.flatMap (fieldBits model.wireBits s record)).length % 8 = 0 := by
  obtain ⟨back, place⟩ := protects.place
  have first : (front.flatMap (fieldBits model.wireBits s record)).length % 8 = 0 := by
    rcases List.eq_nil_or_concat front with rfl | ⟨before, last, rfl⟩
    · rfl
    · rw [List.concat_eq_append] at place ⊢
      have parity : last.shape.isParity = true := protects.starts last (by simp)
      obtain ⟨other, shape⟩ : ∃ other, last.shape = .parity other := by
        cases shape : last.shape <;> simp_all [Shape.isParity]
      rw [List.append_assoc, List.singleton_append] at place
      obtain ⟨earlier, later, _, _, among, -, fills⟩ := formed.fills_before made member right place
        (by simp [Field.isPacked, shape, Shape.isEnum])
      have admits := ((formed.structs earlier s later among).fields.each last
        (by simp [place])).shape
      rw [shape] at admits
      have whole := fills.whole
      have own := admits.2.1
      simp only [List.flatMap_append, List.length_append, List.flatMap_singleton, fieldBits, shape,
        List.length_replicate]
      omega
  rw [← List.append_assoc] at place
  obtain ⟨_, _, _, _, -, -, fills⟩ := formed.fills_before made member right place
    (by simp [Field.isPacked, protects.shape, Shape.isEnum])
  have both := fills.whole
  rw [List.flatMap_append, List.length_append] at both
  omega

/-- The bits since the last parity are as many as its message has if and only if the open fields
have what they declare. -/
theorem Struct.Protects.length_eq_iff :
    (covered.flatMap (fieldBits model.wireBits s record)).length = declaredSinceParity covered ↔
      ((covered.filter Field.isOpen).flatMap (fieldBits model.wireBits s record)).length =
        declaredSinceParity (covered.filter Field.isOpen) := by
  obtain ⟨back, place⟩ := protects.place
  obtain ⟨earlier, later, among⟩ := List.append_of_mem member
  have inside : ∀ other ∈ covered, other ∈ s.fields := fun other member => by simp [place, member]
  have length := Codec.length_declared
    (fun other member => formed.typedFields made among right other (inside other member))
    protects.plain
  rw [formed.flatMap_wireBits among inside, formed.flatMap_wireBits among fun other member =>
    inside other (List.mem_filter.mp member).1]
  omega

end Protected

/-- A parity is what the encoder answers for the bytes right before it, as many as the rows since
the last parity declare. These are the bytes of the fields since then if and only if the open ones
among them take together what their rows declare. -/
theorem parity_covers_iff {document : Document} {window : Nat} {source : String} {model : Model}
    {s : Struct} {front covered : List Field} {field : Field} {code : LdpcCode} {record : Record}
    {encoder : LdpcEncoder} {writer after : Writer}
    (accepted : analyze document window source = .ok model) (member : s ∈ model.structs)
    (protects : s.Protects front covered field code)
    (right : model.hasType s.id (.record record) = true) (known : writer.ldpc = some encoder)
    (run : (model.encode window s.id (.record record)).run writer = .ok (.ok (), after)) :
    let bits (fields : List Field) := fields.flatMap (fieldBits model.wireBits s record)
    let start := writer.offset + (bits front).length / 8
    let stop := start + (bits covered).length / 8
    let message := after.bytesAt (stop - code.messageBits / 8) (code.messageBits / 8)
    code.messageBits = declaredSinceParity covered ∧ code.messageBits / 8 ≤ stop ∧
    encoder.parity code message (code.parityBits / 8) =
      .ok (after.bytesAt stop (code.parityBits / 8)) ∧
    (message = after.bytesAt start (stop - start) ↔
      (bits (covered.filter Field.isOpen)).length =
        declaredSinceParity (covered.filter Field.isOpen)) := by
  intro bits start stop message
  have formed : model.WellFormed window :=
    { coherent_of_analyze accepted with names := names_of_analyze accepted }
  have made := (made_of_analyze accepted).structs
  obtain ⟨back, place⟩ := protects.place
  rw [← List.append_assoc] at place
  obtain ⟨aligned, declared⟩ := (made s member).parities _ _ _ place code protects.shape
  rw [declaredSinceParity_append protects.starts] at declared
  obtain ⟨reached, next, advances, parityRun, continues⟩ :=
    formed.parity_reached made member right place protects.shape run
  obtain ⟨wholeFront, wholeCovered⟩ :
      (bits front).length % 8 = 0 ∧ (bits covered).length % 8 = 0 :=
    protects.whole formed made member right
  have lengths : (bits covered).length = declaredSinceParity covered ↔
      (bits (covered.filter Field.isOpen)).length = _ :=
    protects.length_eq_iff formed made member right
  have offset : reached.offset = stop := by
    have both : (bits (front ++ covered)).length = (bits front).length + (bits covered).length := by
      rw [← List.length_append, ← List.flatMap_append]
    have moved : reached.offset = writer.offset + (bits (front ++ covered)).length / 8 :=
      advances.offset
    omega
  obtain ⟨continues, inside, behind, answer⟩ :=
    Writer.parity_answer (advances.ldpc.trans known) aligned parityRun continues
  rw [offset] at inside behind answer
  have seen {start size : Nat} (before : start + size ≤ stop) :
      after.bytesAt start size = reached.bytesAt start size :=
    continues.bytesAt (by omega)
  have order : start ≤ stop := Nat.le_add_right _ _
  refine ⟨declared, behind, answer, ?_⟩
  have same : message = after.bytesAt start (stop - start) ↔
      code.messageBits / 8 = stop - start := by
    have found : message = reached.bytesAt (stop - code.messageBits / 8) (code.messageBits / 8) :=
      seen (by omega)
    rw [found, seen (by omega), Writer.bytesAt_eq_iff order behind inside]
  simp only [LdpcCode.isByteAligned, Bool.and_eq_true, beq_iff_eq] at aligned
  rw [same, ← lengths]
  omega

def Wire.LdpcEncoder.echo : LdpcEncoder where
  parity _ message size := .ok ((message ++ List.replicate size 0).take size)
  length_parity _ message size bytes answer := by
    cases answer
    simp

def shieldDocument : Document where
  ranges := [⟨"'0x0001'", "#shield"⟩]
  structs := [("0x0001", [
    ⟨"u(16)", "shield_descriptor", "'0x0001'"⟩,
    ⟨"b(64)", "parity", "LDPC(80, 16)"⟩,
    ⟨"u(3)", "low", ""⟩,
    ⟨"u(5)", "high", ""⟩,
    ⟨"b(64)", "parity", "LDPC(72, 8)"⟩])]

def shieldStruct : Struct where
  key := "0x0001"
  id := "Shield"
  kind := "shield"
  role := .packet
  fields := [
    ⟨"shield_descriptor", .descriptor, 16, .none, some 1, false⟩,
    ⟨"parity", .parity ⟨80, 16⟩, 64, .none, none, false⟩,
    ⟨"low", .bitfield, 3, .none, none, false⟩,
    ⟨"high", .bitfield, 5, .none, none, false⟩,
    ⟨"parity_2", .parity ⟨72, 8⟩, 64, .none, none, false⟩]
  sizeBits := 152
  descriptor := some 1

def shieldModel : Model where
  source := "shield"
  structs := [shieldStruct]
  descriptors := ⟨[("shield", 1)]⟩

def shieldRecord : Record := [("low", .unsigned 5), ("high", .unsigned 17)]

theorem analyze_shield : analyze shieldDocument 32 "shield" = .ok shieldModel :=
  ok_of_toOption (by decide +kernel)

/-- The second parity of the shield covers the byte between the two. -/
theorem shield_parity_covers :
    analyze shieldDocument 32 "shield" = .ok shieldModel ∧
    shieldModel.hasType shieldStruct.id (.record shieldRecord) = true ∧
    ∃ after, (shieldModel.encode 32 shieldStruct.id (.record shieldRecord)).run
        { buffer := List.replicate 19 0xff, ldpc := some LdpcEncoder.echo } = .ok (.ok (), after) ∧
      LdpcEncoder.echo.parity ⟨72, 8⟩ (after.bytesAt 10 1) 8 = .ok (after.bytesAt 11 8) ∧
      after.bytesAt 10 1 = [0xb1] := by
  have protects : shieldStruct.Protects (shieldStruct.fields.take 2)
      ((shieldStruct.fields.drop 2).take 2)
      ⟨"parity_2", .parity ⟨72, 8⟩, 64, .none, none, false⟩ ⟨72, 8⟩ :=
    ⟨⟨[], rfl⟩, rfl, by decide, by decide⟩
  have right : shieldModel.hasType shieldStruct.id (.record shieldRecord) = true := by
    decide +kernel
  have run : (shieldModel.encode 32 shieldStruct.id (.record shieldRecord)).run
      { buffer := List.replicate 19 0xff, ldpc := some LdpcEncoder.echo } = .ok (.ok (), {
        buffer := [0, 1, 0, 1, 0, 0, 0, 0, 0, 0, 0xb1, 0xb1, 0, 0, 0, 0, 0, 0, 0]
        offset := 19
        ldpc := some LdpcEncoder.echo }) := by
    set_option maxRecDepth 1000 in rfl
  have result := parity_covers_iff analyze_shield (.head _) protects right rfl run
  obtain ⟨-, -, answer, -⟩ := result
  exact ⟨analyze_shield, right, _, run, answer, rfl⟩

/-- A packet whose parity covers payload, which is not written before it. -/
def guardDocument : Document where
  ranges := [⟨"'0x0001'", "#guard"⟩]
  structs := [("0x0001", [
    ⟨"u(16)", "guard_descriptor", "'0x0001'"⟩,
    ⟨"u(8)", "body", "payload"⟩,
    ⟨"b(64)", "parity", "LDPC(88, 24)"⟩])]

def guardStruct : Struct where
  key := "0x0001"
  id := "Guard"
  kind := "guard"
  role := .packet
  fields := [
    ⟨"guard_descriptor", .descriptor, 16, .none, some 1, false⟩,
    ⟨"body", .payload, 8, .none, none, false⟩,
    ⟨"parity", .parity ⟨88, 24⟩, 64, .none, none, false⟩]
  sizeBits := 80
  descriptor := some 1

def guardModel : Model where
  source := "guard"
  structs := [guardStruct]
  descriptors := ⟨[("guard", 1)]⟩

theorem analyze_guard : analyze guardDocument 32 "guard" = .ok guardModel :=
  ok_of_toOption (by decide +kernel)

/-- The message begins one byte before the packet. -/
theorem guard_parity_begins_early :
    analyze guardDocument 32 "guard" = .ok guardModel ∧
    guardStruct.Protects [] (guardStruct.fields.take 2)
      ⟨"parity", .parity ⟨88, 24⟩, 64, .none, none, false⟩ ⟨88, 24⟩ ∧
    guardModel.hasType guardStruct.id (.record []) = true ∧
    ∃ after, (guardModel.encode 32 guardStruct.id (.record [])).run
        { buffer := 0xff :: List.replicate 10 0, offset := 1, ldpc := some LdpcEncoder.echo } =
          .ok (.ok (), after) ∧
      after.bytesAt 1 2 = [0, 1] ∧
      LdpcEncoder.echo.parity ⟨88, 24⟩ [0xff, 0, 1] 8 = .ok (after.bytesAt 3 8) ∧
      LdpcEncoder.echo.parity ⟨88, 24⟩ [0, 1] 8 ≠ .ok (after.bytesAt 3 8) := by
  refine ⟨analyze_guard, ⟨⟨[], rfl⟩, rfl, by decide, by decide⟩, by decide +kernel, {
    buffer := [0xff, 0, 1, 0xff, 0, 1, 0, 0, 0, 0, 0]
    offset := 11
    ldpc := some LdpcEncoder.echo }, ?_, rfl, rfl, ?_⟩
  · set_option maxRecDepth 1000 in rfl
  · intro same
    exact absurd (Except.ok.inj same) (by decide)

end PacketSpec
