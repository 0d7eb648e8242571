import PacketSpec.Proofs.Wire.Parity

/-! Whether a refused parity leaves the writer as it was. It does as long as the encoder has not
been asked. An encoder without a matrix for the code refuses when the cursor has already been moved
over the place of the parity, and it is not moved back. -/
namespace PacketSpec.Wire

inductive ParityMatrix.Serves : Option LdpcEncoder → Prop
  | nothing : Serves none
  | one (matrix : ParityMatrix) : Serves (some matrix.encoder)
  | several (matrices : List ParityMatrix) : Serves (some (encoderOfList matrices))

/-- All that can be seen of a writer is as it was. -/
structure Writer.Unchanged (writer after : Writer) : Prop where
  buffer : after.buffer = writer.buffer
  offset : after.offset = writer.offset
  remaining : after.remaining = writer.remaining
  written : after.written = writer.written

theorem Writer.Unchanged.refl (writer : Writer) : writer.Unchanged writer := ⟨rfl, rfl, rfl, rfl⟩

/-- Matrices give no other answer than that the code is unsupported. -/
theorem ParityMatrix.Serves.refuses {writer : Writer} {code : LdpcCode} {e : EncodeError}
    (served : Serves writer.ldpc) (fits : writer.HasRoomFor code)
    (refused : writer.parityFor code = .error e) : e = unsupported code := by
  have listed {matrices : List ParityMatrix}
      (known : writer.ldpc = some (encoderOfList matrices)) : e = unsupported code := by
    rw [fits.parityFor_eq known] at refused
    split at refused
    · cases refused
    · exact (Except.error.inj refused).symm
  -- the encoders are no constructors, so the writer's one is named before the cases
  generalize known : writer.ldpc = ldpc at served
  cases served with
  | nothing =>
    rw [Writer.parityFor, known] at refused
    cases refused
  | one matrix => exact listed (known.trans (congrArg some matrix.encoder_eq_encoderOfList))
  | several matrices => exact listed known

/-- A refused parity never changes the buffer. The cursor stays if and only if there was no room for
the parity or no message before it; else the code is unsupported, and the cursor has moved over the
place where the parity would stand. -/
theorem refused_parity_unchanged_iff {writer after : Writer} {code : LdpcCode} {e : EncodeError}
    (served : ParityMatrix.Serves writer.ldpc)
    (refused : (Writer.parity code).run writer = (.error e, after)) :
    after.buffer = writer.buffer ∧ (writer.Unchanged after ↔ ¬ writer.HasRoomFor code) ∧
    (writer.HasRoomFor code →
      e = unsupported code ∧ after.offset = writer.offset + code.parityBits / 8) := by
  by_cases fits : writer.HasRoomFor code
  · rw [Writer.parity_run_of_room fits] at refused
    cases answer : writer.parityFor code with
    | ok bytes =>
      rw [answer] at refused
      cases refused
    | error reason =>
      rw [answer] at refused
      cases refused
      have positive := fits.parity_pos
      refine ⟨rfl, ⟨fun same => ?_, fun full => absurd fits full⟩, fun _ => ?_⟩
      · have moved : writer.offset + code.parityBits / 8 = writer.offset := same.offset
        omega
      · exact ⟨served.refuses fits answer, rfl⟩
  · rw [Writer.parity_run_of_no_room fits] at refused
    cases refused
    exact ⟨rfl, ⟨fun _ => fits, fun _ => .refl writer⟩, fun room => absurd room fits⟩

def emptyMatrix : ParityMatrix where
  code := ⟨64, 0⟩
  words := List.replicate 64 0
  parity_pos := by decide
  parity_words := by decide
  message_bytes := by decide
  length_words := List.length_replicate

def tenByteWriter : Writer where
  buffer := 7 :: List.replicate 9 0
  offset := 1
  ldpc := some emptyMatrix.encoder

/-- A parity of ten bytes has no room, and the writer stays. One of eight bytes is refused by the
matrix, and the cursor moves over them. -/
theorem tenByteWriter_refuses :
    tenByteWriter.Unchanged ((Writer.parity ⟨88, 8⟩).run tenByteWriter).2 ∧
      ((Writer.parity ⟨72, 8⟩).run tenByteWriter).2.offset = 9 := by
  have served : ParityMatrix.Serves tenByteWriter.ldpc := .one emptyMatrix
  have short : (Writer.parity ⟨88, 8⟩).run tenByteWriter =
      (.error (.bufferTooSmall 10 9), tenByteWriter) := rfl
  have foreign : (Writer.parity ⟨72, 8⟩).run tenByteWriter =
      (.error (.unsupportedLdpcCode 72 8), { tenByteWriter with offset := 9 }) := rfl
  have stays := refused_parity_unchanged_iff served short
  have moves := refused_parity_unchanged_iff served foreign
  rw [short, foreign]
  exact ⟨stays.2.1.mpr (by decide), (moves.2.2 (by decide)).2⟩

/-- The refused parity leaves the cursor eight bytes behind the one that was written. -/
theorem tenByteWriter_moves :
    ParityMatrix.Serves tenByteWriter.ldpc ∧
    ∃ after, (Writer.parity ⟨72, 8⟩).run tenByteWriter =
        (.error (.unsupportedLdpcCode 72 8), after) ∧
      tenByteWriter.offset = 1 ∧ after.offset = 9 ∧
      tenByteWriter.remaining = 9 ∧ after.remaining = 1 ∧
      tenByteWriter.written = [7] ∧ after.written = [7, 0, 0, 0, 0, 0, 0, 0, 0] ∧
      ¬ tenByteWriter.Unchanged after := by
  refine ⟨.one emptyMatrix, { tenByteWriter with offset := 9 }, rfl, rfl, rfl, rfl, rfl, rfl, rfl,
    ?_⟩
  intro same
  exact absurd same.offset (by decide)

end PacketSpec.Wire
