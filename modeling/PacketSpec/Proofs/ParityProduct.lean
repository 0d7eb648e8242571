import PacketSpec.Proofs.Codec.Keeping
import PacketSpec.Proofs.Size
import PacketSpec.Proofs.Wire.Columns
import PacketSpec.Proofs.Wire.Parity
import PacketSpec.Proofs.Wire.Stream

/-! The parity that a matrix gives is its product with the message over GF(2): every word of the
parity is the sum of the columns that the bits of the message select. A parity with room is always
written, and nothing beside it changes. -/
namespace PacketSpec.Wire

/-- The matrix is the one that the encoder uses for its code: it is the only one, or no earlier one
of a list is for the same code. -/
inductive LdpcEncoder.Consults : LdpcEncoder → ParityMatrix → Prop
  | alone (matrix : ParityMatrix) : Consults matrix.encoder matrix
  | first {before after : List ParityMatrix} {matrix : ParityMatrix}
      (others : ∀ other ∈ before, other.code ≠ matrix.code) :
      Consults (ParityMatrix.encoderOfList (before ++ matrix :: after)) matrix

structure Writer.Protects (writer : Writer) (matrix : ParityMatrix) : Prop where
  encoder : ∃ encoder, writer.ldpc = some encoder ∧ encoder.Consults matrix
  behind : matrix.code.messageBits / 8 ≤ writer.offset
  room : matrix.code.parityBits / 8 ≤ writer.remaining

def ParityMatrix.Adds (matrix : ParityMatrix) (message parity : Bytes) : Prop :=
  ∃ writer after : Writer, writer.Protects matrix ∧
    (Writer.parity matrix.code).run writer = (.ok (), after) ∧
    writer.messageFor matrix.code = message ∧
    after.bytesAt writer.offset (matrix.code.parityBits / 8) = parity

variable {matrix : ParityMatrix} {writer : Writer}

theorem ParityMatrix.ofWords?_eq_some {code : LdpcCode} {words : List UInt64}
    (built : ofWords? code words = .ok (some matrix)) :
    matrix.code = code ∧ matrix.words = words := by
  unfold ofWords? at built
  split at built
  · obtain ⟨_, -, rest⟩ := bind_eq_ok.mp built
    split at rest
    · obtain rfl := Option.some.inj (pure_eq_ok.mp rest)
      exact ⟨rfl, rfl⟩
    · cases pure_eq_ok.mp rest
  · cases pure_eq_ok.mp built

theorem ParityMatrix.isByteAligned (matrix : ParityMatrix) : matrix.code.isByteAligned = true := by
  have positive := matrix.parity_pos
  have words := matrix.parity_words
  have message := matrix.message_bytes
  simp only [LdpcCode.isByteAligned, LdpcCode.parityBits, Bool.and_eq_true, decide_eq_true_eq,
    beq_iff_eq] at positive words ⊢
  omega

namespace Writer.Protects

theorem hasRoom (protects : writer.Protects matrix) : writer.HasRoomFor matrix.code :=
  ⟨matrix.isByteAligned, protects.behind, protects.room⟩

theorem parityFor_eq (protects : writer.Protects matrix) :
    writer.parityFor matrix.code =
      .ok (matrix.parityBytes (writer.messageFor matrix.code)) := by
  obtain ⟨encoder, known, consults⟩ := protects.encoder
  cases consults with
  | alone =>
    rw [matrix.encoder_eq_encoderOfList] at known
    rw [protects.hasRoom.parityFor_eq known, List.find?_cons_of_pos (by simp)]
  | @first before after _ others =>
    have skipped : before.find? (·.code == matrix.code) = none := by
      simpa using others
    rw [protects.hasRoom.parityFor_eq known, List.find?_append, skipped, Option.none_or,
      List.find?_cons_of_pos (by simp)]

theorem parity_run (protects : writer.Protects matrix) :
    (Writer.parity matrix.code).run writer =
      (.ok (), writer.append (matrix.parityBytes (writer.messageFor matrix.code))) := by
  rw [parity_run_of_room protects.hasRoom, protects.parityFor_eq]

theorem room_parityBytes (protects : writer.Protects matrix) (message : Bytes) :
    writer.offset + (matrix.parityBytes message).length ≤ writer.buffer.length := by
  have positive := protects.hasRoom.parity_pos
  have room := protects.room
  rw [remaining] at room
  rw [matrix.length_parityBytes]
  omega

/-- What is found behind the old cursor is the parity of the message. -/
theorem bytesAt_append (protects : writer.Protects matrix) (message : Bytes) :
    (writer.append (matrix.parityBytes message)).bytesAt writer.offset
      (matrix.code.parityBits / 8) = matrix.parityBytes message := by
  rw [← matrix.length_parityBytes message]
  exact Writer.bytesAt_append (protects.room_parityBytes message)

/-- The parity is written behind the message, and its words are sums of columns. -/
theorem writes_product (protects : writer.Protects matrix) : ∃ after,
    (Writer.parity matrix.code).run writer = (.ok (), after) ∧
    writer.Advances (matrix.code.parityBits / 8) after ∧
    (∀ position, position < writer.offset ∨ after.offset ≤ position →
      after.buffer[position]? = writer.buffer[position]?) ∧
    ∀ r < matrix.code.parityBits / 64,
      wordAt (after.bytesAt writer.offset (matrix.code.parityBits / 8)) r =
        columnSum matrix.code.messageBits (bitAt (writer.messageFor matrix.code)) fun i =>
          matrix.words.getD (r * matrix.code.codeBits + i) 0 := by
  have sized := protects.hasRoom.length_messageFor
  have length := matrix.length_parityBytes (writer.messageFor matrix.code)
  have room := protects.room_parityBytes (writer.messageFor matrix.code)
  refine ⟨_, protects.parity_run, ?_, fun position outside => ?_, fun r inside => ?_⟩
  · have advances := Writer.advances_append (length ▸ protects.room)
    rwa [length] at advances
  · exact Writer.append_frame room outside
  · rw [protects.bytesAt_append, matrix.wordAt_parityBytes _ inside,
      matrix.parityWord_eq sized inside]

end Writer.Protects

/-- Exactly the messages of the right size get a parity, and it depends on nothing else. -/
theorem ParityMatrix.adds_iff {message parity : Bytes} :
    matrix.Adds message parity ↔
      message.length = matrix.code.messageBits / 8 ∧ parity = matrix.parityBytes message := by
  constructor
  · rintro ⟨writer, after, protects, run, rfl, rfl⟩
    rw [protects.parity_run] at run
    cases run
    exact ⟨protects.hasRoom.length_messageFor, protects.bytesAt_append _⟩
  · rintro ⟨size, rfl⟩
    -- a writer that holds the message and room for its parity, and nothing else
    let writer : Writer := {
      buffer := message ++ List.replicate (matrix.code.parityBits / 8) 0
      offset := message.length
      ldpc := some matrix.encoder }
    have protects : writer.Protects matrix :=
      ⟨⟨_, rfl, .alone matrix⟩, Nat.le_of_eq size.symm, by simp [writer, Writer.remaining]⟩
    have before : writer.messageFor matrix.code = message := by
      simp [Writer.messageFor, Writer.bytesAt, writer, size]
    refine ⟨writer, _, protects, protects.parity_run, before, ?_⟩
    rw [before]
    exact protects.bytesAt_append message

/-- With a matrix of `n` code bits and `k` message bits, a parity that has room is written, and each
of its words is the sum of the columns that the message selects in one row. So the parity of a sum
is the sum of the parities, and the columns from `k` on do not count. -/
theorem parity_is_matrix_product {n k : Nat} {words : List UInt64} {matrix : ParityMatrix}
    (built : ParityMatrix.ofWords? ⟨n, k⟩ words = .ok (some matrix)) :
    (∀ writer : Writer, writer.Protects matrix → ∃ after,
      (Writer.parity ⟨n, k⟩).run writer = (.ok (), after) ∧
      writer.Advances ((n - k) / 8) after ∧
      (∀ position, position < writer.offset ∨ after.offset ≤ position →
        after.buffer[position]? = writer.buffer[position]?) ∧
      ∀ r < (n - k) / 64,
        wordAt (after.bytesAt writer.offset ((n - k) / 8)) r =
          columnSum k (bitAt (writer.bytesAt (writer.offset - k / 8) (k / 8))) fun i =>
            words.getD (r * n + i) 0) ∧
    (∀ message, message.length = k / 8 → ∃ parity, matrix.Adds message parity) ∧
    (∀ first second p q sum, matrix.Adds first p → matrix.Adds second q →
      matrix.Adds (xorBytes first second) sum → sum = xorBytes p q) ∧
    (∀ others other, ParityMatrix.ofWords? ⟨n, k⟩ others = .ok (some other) →
      (∀ r < (n - k) / 64, ∀ i < k, others.getD (r * n + i) 0 = words.getD (r * n + i) 0) →
      ∀ message p q, matrix.Adds message p → other.Adds message q → q = p) := by
  obtain ⟨code, rfl⟩ := ParityMatrix.ofWords?_eq_some built
  refine ⟨fun writer protects => ?_, ?_, ?_, ?_⟩
  · have product := protects.writes_product
    simpa only [code, LdpcCode.parityBits, Writer.messageFor] using product
  · intro message long
    exact ⟨_, ParityMatrix.adds_iff.mpr ⟨by rw [long, code], rfl⟩⟩
  · intro first second p q sum one two both
    obtain ⟨sized, rfl⟩ := ParityMatrix.adds_iff.mp one
    obtain ⟨also, rfl⟩ := ParityMatrix.adds_iff.mp two
    obtain ⟨-, rfl⟩ := ParityMatrix.adds_iff.mp both
    exact matrix.parityBytes_xor sized also
  · intro others other given columns message p q one two
    obtain ⟨same, rfl⟩ := ParityMatrix.ofWords?_eq_some given
    obtain ⟨sized, rfl⟩ := ParityMatrix.adds_iff.mp one
    obtain ⟨-, rfl⟩ := ParityMatrix.adds_iff.mp two
    refine ParityMatrix.parityBytes_congr (same.trans code.symm) sized ?_
    simpa only [code, LdpcCode.parityBits] using columns

/-- One row of parity for a message of some bytes, whose columns are counted from one. -/
def countingMatrix (bytes : Nat) : ParityMatrix where
  code := ⟨64 + 8 * bytes, 8 * bytes⟩
  words := (List.range (64 + 8 * bytes)).map fun i => UInt64.ofNat (i + 1)
  parity_pos := by simp [LdpcCode.parityBits]
  parity_words := by simp [LdpcCode.parityBits]
  message_bytes := Nat.mul_mod_right ..
  length_words := by simp [LdpcCode.parityBits]

def countingWriter : Writer where
  buffer := 5 :: List.replicate 9 0xff
  offset := 1
  ldpc := some (ParityMatrix.encoderOfList [countingMatrix 0, countingMatrix 1])

/-- The second of the matrices is asked. The byte 5 selects the columns 1 and 3, whose sum is 2. -/
theorem countingWriter_sums :
    ∃ after, (Writer.parity ⟨72, 8⟩).run countingWriter = (.ok (), after) ∧ after.offset = 9 ∧
      after.buffer[9]? = some 0xff ∧ wordAt (after.bytesAt 1 8) 0 = 2 := by
  have built : ParityMatrix.ofWords? ⟨72, 8⟩ (countingMatrix 1).words =
      .ok (some (countingMatrix 1)) := rfl
  have others : ∀ other ∈ [countingMatrix 0], other.code ≠ (countingMatrix 1).code := by decide
  have protects : countingWriter.Protects (countingMatrix 1) := {
    encoder := ⟨_, rfl, .first others⟩
    behind := by decide
    room := by decide }
  obtain ⟨after, run, advances, frame, product⟩ :=
    (parity_is_matrix_product built).1 countingWriter protects
  have moved : after.offset = 9 := advances.offset
  refine ⟨after, run, moved, ?_, ?_⟩
  · rw [frame 9 (.inr (Nat.le_of_eq moved))]
    rfl
  · have first := product 0 (by decide)
    exact first.trans (by decide)

end PacketSpec.Wire
