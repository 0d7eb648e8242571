import PacketSpec.Proofs.Codec.Spending

/-! How writing a parity ends, as equations. The encoder is asked only if the message stands before
the cursor and the parity has room behind it, and the room is taken before it answers. -/
namespace PacketSpec.Wire

namespace Writer

/-- The code is one of whole bytes, its message stands before the cursor and its parity has room. -/
structure HasRoomFor (writer : Writer) (code : LdpcCode) : Prop where
  aligned : code.isByteAligned = true
  behind : code.messageBits / 8 ≤ writer.offset
  room : code.parityBits / 8 ≤ writer.remaining

instance (writer : Writer) (code : LdpcCode) : Decidable (writer.HasRoomFor code) :=
  decidable_of_iff (code.isByteAligned = true ∧ code.messageBits / 8 ≤ writer.offset ∧
      code.parityBits / 8 ≤ writer.remaining)
    ⟨fun all => ⟨all.1, all.2.1, all.2.2⟩, fun fits => ⟨fits.aligned, fits.behind, fits.room⟩⟩

def messageFor (writer : Writer) (code : LdpcCode) : Bytes :=
  writer.bytesAt (writer.offset - code.messageBits / 8) (code.messageBits / 8)

def parityFor (writer : Writer) (code : LdpcCode) : Except EncodeError Bytes :=
  match writer.ldpc with
  | some encoder => encoder.parity code (writer.messageFor code) (code.parityBits / 8)
  | none => .ok (List.replicate (code.parityBits / 8) 0)

variable {writer : Writer} {code : LdpcCode}

theorem HasRoomFor.parity_pos (fits : writer.HasRoomFor code) : 0 < code.parityBits / 8 := by
  have aligned := fits.aligned
  simp only [LdpcCode.isByteAligned, LdpcCode.parityBits, Bool.and_eq_true, decide_eq_true_eq,
    beq_iff_eq] at aligned ⊢
  omega

/-- A parity with room fills it, or it is refused and the room is left as it is. -/
theorem parity_run_of_room (fits : writer.HasRoomFor code) :
    (parity code).run writer =
      match writer.parityFor code with
      | .ok bytes => (.ok (), writer.append bytes)
      | .error e => (.error e, { writer with offset := writer.offset + code.parityBits / 8 }) := by
  simp only [parity, fits.aligned, Bool.not_true, Bool.false_eq_true, if_false, run_bind, get_run,
    if_neg (Nat.not_lt.mpr fits.behind), reserve_run, if_neg (Nat.not_lt.mpr fits.room)]
  cases known : writer.ldpc with
  | none =>
    simp only [parityFor, known, append, List.length_replicate]
    rfl
  | some encoder =>
    simp only [parityFor, known, messageFor, bytesAt, run_bind]
    cases answer : encoder.parity code ((writer.buffer.drop
        (writer.offset - code.messageBits / 8)).take (code.messageBits / 8))
        (code.parityBits / 8) with
    | error e => rfl
    | ok bytes =>
      have size := encoder.length_parity _ _ _ _ answer
      simp only [append, size, known]
      rfl

/-- Without room nothing happens to the writer. -/
theorem parity_run_of_no_room (full : ¬ writer.HasRoomFor code) :
    (parity code).run writer =
      (.error (if code.isByteAligned = true ∧ code.messageBits / 8 ≤ writer.offset then
          .bufferTooSmall (code.parityBits / 8) writer.remaining
        else unsupported code), writer) := by
  by_cases aligned : code.isByteAligned = true
  · by_cases behind : code.messageBits / 8 ≤ writer.offset
    · have short : writer.remaining < code.parityBits / 8 :=
        Nat.lt_of_not_le fun room => full ⟨aligned, behind, room⟩
      simp only [parity, aligned, Bool.not_true, Bool.false_eq_true, if_false, run_bind, get_run,
        if_neg (Nat.not_lt.mpr behind), reserve_run, if_pos short, behind, and_self, if_true]
    · simp only [parity, aligned, Bool.not_true, Bool.false_eq_true, if_false, run_bind, get_run,
        if_pos (Nat.lt_of_not_le behind), behind, and_false]
      rfl
  · simp only [parity, aligned, Bool.not_false, if_true, run_bind]
    rfl

end Writer

namespace ParityMatrix

/-- A single matrix serves as a list of one does. -/
theorem encoder_eq_encoderOfList (matrix : ParityMatrix) :
    matrix.encoder = encoderOfList [matrix] := by
  have same (code : LdpcCode) (message : Bytes) (size : Nat) :
      matrix.parity code message size = (encoderOfList [matrix]).parity code message size := by
    by_cases own : matrix.code = code
    · simp [encoderOfList, own]
    · have other : ¬ code = matrix.code := fun same => own same.symm
      simp [encoderOfList, own, parity, other]
  simp only [encoder, encoderOfList, LdpcEncoder.mk.injEq]
  funext code message size
  exact same code message size

end ParityMatrix

variable {writer : Writer} {code : LdpcCode}

theorem Writer.HasRoomFor.length_messageFor (fits : writer.HasRoomFor code) :
    (writer.messageFor code).length = code.messageBits / 8 := by
  have positive := fits.parity_pos
  have behind := fits.behind
  have room := fits.room
  rw [remaining] at room
  rw [messageFor, bytesAt, List.length_take, List.length_drop]
  omega

/-- With room, matrices refuse exactly the codes that none of them is for. -/
theorem Writer.HasRoomFor.parityFor_eq {matrices : List ParityMatrix}
    (fits : writer.HasRoomFor code)
    (known : writer.ldpc = some (ParityMatrix.encoderOfList matrices)) :
    writer.parityFor code =
      match matrices.find? (·.code == code) with
      | some matrix => .ok (matrix.parityBytes (writer.messageFor code))
      | none => .error (unsupported code) := by
  simp only [parityFor, known, ParityMatrix.encoderOfList]
  cases found : matrices.find? (·.code == code) with
  | none => rfl
  | some matrix =>
    have own : matrix.code = code := by simpa using List.find?_some found
    simp only [ParityMatrix.parity, own, fits.length_messageFor, Nat.le_refl, and_self, if_true]

end PacketSpec.Wire
