import Mathlib.Algebra.GroupWithZero.Nat
import PacketSpec.Proofs.Codec.Writing

/-! How many bytes of the buffer a writing step takes. Nothing is asked of the writer: its cursor
may stand anywhere, and it may have any parity encoder. -/
namespace PacketSpec

namespace Wire

def LdpcEncoder.Answers (encoder : LdpcEncoder) (e : EncodeError) : Prop :=
  ∃ code message size, encoder.parity code message size = .error e

/-- Matrices refuse nothing but codes that are not theirs. -/
theorem ParityMatrix.parity_error {matrix : ParityMatrix} {code : LdpcCode} {message : Bytes}
    {size : Nat} {e : EncodeError} (refused : matrix.parity code message size = .error e) :
    e = unsupported code := by
  unfold parity at refused
  split at refused
  · cases refused
  · cases refused
    rfl

theorem ParityMatrix.encoder_answers {matrix : ParityMatrix} {e : EncodeError}
    (answers : matrix.encoder.Answers e) : ∃ code, e = unsupported code := by
  obtain ⟨code, message, size, refused⟩ := answers
  exact ⟨code, parity_error refused⟩

theorem ParityMatrix.encoderOfList_answers {matrices : List ParityMatrix} {e : EncodeError}
    (answers : (encoderOfList matrices).Answers e) : ∃ code, e = unsupported code := by
  obtain ⟨code, message, size, refused⟩ := answers
  simp only [encoderOfList] at refused
  split at refused
  · exact ⟨code, parity_error refused⟩
  · cases refused
    exact ⟨code, rfl⟩

namespace Writer

structure Advances (writer : Writer) (size : Nat) (after : Writer) : Prop where
  room : size ≤ writer.remaining
  offset : after.offset = writer.offset + size
  length : after.buffer.length = writer.buffer.length
  ldpc : after.ldpc = writer.ldpc

theorem Advances.refl (writer : Writer) : writer.Advances 0 writer := ⟨Nat.zero_le _, rfl, rfl, rfl⟩

theorem Advances.remaining {writer after : Writer} {size : Nat}
    (advances : writer.Advances size after) : after.remaining = writer.remaining - size := by
  simp only [Writer.remaining, advances.length, advances.offset]
  omega

theorem Advances.trans {writer middle after : Writer} {first second : Nat}
    (one : writer.Advances first middle) (other : middle.Advances second after) :
    writer.Advances (first + second) after := by
  have room := other.room
  have left := one.room
  rw [one.remaining] at room
  refine ⟨by omega, ?_, other.length.trans one.length, other.ldpc.trans one.ldpc⟩
  rw [other.offset, one.offset, Nat.add_assoc]

theorem advances_append {writer : Writer} {bytes : Bytes} (room : bytes.length ≤ writer.remaining) :
    writer.Advances bytes.length (writer.append bytes) := by
  refine ⟨room, rfl, ?_, rfl⟩
  simp only [Writer.remaining] at room
  simp only [append, splice, List.length_append, List.length_take, List.length_drop]
  omega

def bytesAt (writer : Writer) (start size : Nat) : Bytes := (writer.buffer.drop start).take size

/-- How writing a parity can end. The message is what stands right before the cursor. -/
inductive ParityEnd (code : LdpcCode) (writer : Writer) : Except EncodeError Unit × Writer → Prop
  | refused : ParityEnd code writer (.error (unsupported code), writer)
  | short (full : writer.remaining < code.parityBits / 8) : ParityEnd code writer
      (.error (.bufferTooSmall (code.parityBits / 8) writer.remaining), writer)
  | answered {encoder : LdpcEncoder} {e : EncodeError} {after : Writer}
      (known : writer.ldpc = some encoder) (answers : encoder.Answers e) :
      ParityEnd code writer (.error e, after)
  | written {bytes : Bytes} (size : bytes.length = code.parityBits / 8)
      (room : bytes.length ≤ writer.remaining) (behind : code.messageBits / 8 ≤ writer.offset)
      (answer : ∀ encoder, writer.ldpc = some encoder →
        encoder.parity code
          (writer.bytesAt (writer.offset - code.messageBits / 8) (code.messageBits / 8))
          (code.parityBits / 8) = .ok bytes) :
      ParityEnd code writer (.ok (), writer.append bytes)

theorem parity_end (code : LdpcCode) (writer : Writer) :
    ParityEnd code writer ((parity code).run writer) := by
  by_cases aligned : code.isByteAligned = true
  · by_cases early : writer.offset < code.messageBits / 8
    · simp only [parity, aligned, Bool.not_true, Bool.false_eq_true, if_false, run_bind, get_run,
        if_pos early]
      exact .refused
    · by_cases full : writer.remaining < code.parityBits / 8
      · simp only [parity, aligned, Bool.not_true, Bool.false_eq_true, if_false, run_bind, get_run,
          if_neg early, reserve_run, if_pos full]
        exact .short full
      · simp only [parity, aligned, Bool.not_true, Bool.false_eq_true, if_false, run_bind, get_run,
          if_neg early, reserve_run, if_neg full]
        have written {bytes : Bytes} (size : bytes.length = code.parityBits / 8)
            (answer : ∀ encoder, writer.ldpc = some encoder →
              encoder.parity code
                (writer.bytesAt (writer.offset - code.messageBits / 8) (code.messageBits / 8))
                (code.parityBits / 8) = .ok bytes) :
            ParityEnd code writer (.ok (),
              ⟨splice writer.buffer writer.offset bytes, writer.offset + code.parityBits / 8,
                writer.ldpc⟩) := by
          rw [← size]
          exact .written size (by omega) (by omega) answer
        split
        · next encoder known =>
          rw [run_bind]
          cases answer : encoder.parity code ((writer.buffer.drop
              (writer.offset - code.messageBits / 8)).take (code.messageBits / 8))
              (code.parityBits / 8) with
          | error e => exact .answered known ⟨_, _, _, answer⟩
          | ok bytes =>
            refine written (encoder.length_parity _ _ _ _ answer) fun other same => ?_
            obtain rfl := Option.some.inj (known.symm.trans same)
            exact answer
        · next without =>
          exact written (List.length_replicate ..) fun encoder known => by
            rw [without] at known
            cases known
  · simp only [parity, aligned, Bool.not_false, if_true, run_bind]
    exact .refused

end Writer

end Wire

namespace Encode

open Wire

variable {α β : Type}

/-- The step takes `size` bytes, and only asks for more room if fewer are left. Else it is the
parity encoder that says so. -/
structure Spends (step : Encode α) (size : Nat) : Prop where
  done : ∀ ⦃writer a after⦄, step.run writer = .ok (.ok a, after) → writer.Advances size after
  short : ∀ ⦃writer wanted available after⦄, size ≤ writer.remaining →
    step.run writer = .ok (.error (.bufferTooSmall wanted available), after) →
    ∃ encoder, writer.ldpc = some encoder ∧ encoder.Answers (.bufferTooSmall wanted available)

theorem spends_pure (a : α) : Spends (pure a) 0 := by
  refine ⟨fun writer b after run => ?_, fun writer wanted available after room run => ?_⟩
  · cases run
    exact .refl writer
  · cases run

theorem spends_fault {fault : Fault} {size : Nat} :
    Spends (check (.error fault) : Encode α) size := by
  refine ⟨fun writer b after run => ?_, fun writer wanted available after room run => ?_⟩ <;>
    cases run

theorem spends_illTyped {field : Field} {size : Nat} : Spends (illTyped field : Encode α) size :=
  spends_fault

theorem spends_throw {e : EncodeError} {size : Nat}
    (other : ∀ wanted available, e ≠ .bufferTooSmall wanted available) :
    Spends (throw e : Encode α) size := by
  refine ⟨fun writer b after run => ?_, fun writer wanted available after room run => ?_⟩
  · cases run
  · cases run
    exact absurd rfl (other wanted available)

theorem Spends.bind {step : Encode α} {next : α → Encode β} {first second : Nat}
    (one : Spends step first) (other : ∀ a, Spends (next a) second) :
    Spends (step >>= next) (first + second) := by
  refine ⟨fun writer b after run => ?_, fun writer wanted available after room run => ?_⟩ <;>
    rw [run_bind] at run
  · split at run
    · next a middle stepped => exact (one.done stepped).trans ((other a).done run)
    · cases run
    · cases run
  · split at run
    · next a middle stepped =>
      have advances := one.done stepped
      rw [← advances.ldpc]
      refine (other a).short ?_ run
      rw [advances.remaining]
      omega
    · next stepped =>
      cases run
      exact one.short (by omega) stepped
    · cases run

theorem Spends.free_bind {step : Encode α} {next : α → Encode β} {size : Nat}
    (free : Spends step 0) (other : ∀ a, Spends (next a) size) : Spends (step >>= next) size := by
  have spends := free.bind other
  rwa [Nat.zero_add] at spends

/-- A computation beside the writer takes nothing. -/
theorem spends_check_bind {result : Except Fault α} {next : α → Encode β} {size : Nat}
    (continues : ∀ a, result = .ok a → Spends (next a) size) :
    Spends (check result >>= next) size := by
  cases result with
  | error fault => exact spends_fault
  | ok a => exact continues a rfl

theorem spends_put (bytes : Bytes) : Spends (write (Writer.put bytes)) bytes.length := by
  refine ⟨fun writer b after run => ?_, fun writer wanted available after room run => ?_⟩
  · have run : (Writer.put bytes).run writer = (.ok b, after) := Except.ok.inj run
    rw [Writer.put_run] at run
    split at run
    · cases run
    · next room =>
      cases run
      exact Writer.advances_append (Nat.not_lt.mp room)
  · have run : (Writer.put bytes).run writer = (.error (.bufferTooSmall wanted available), after) :=
      Except.ok.inj run
    rw [Writer.put_run, if_neg (Nat.not_lt.mpr room)] at run
    cases run

theorem spends_unsigned (size n : Nat) : Spends (write (Writer.unsigned size n)) size := by
  have spends := spends_put (bigEndian size n)
  rwa [length_bigEndian] at spends

theorem spends_zeros (size : Nat) : Spends (write (Writer.zeros size)) size := by
  have spends := spends_put (List.replicate size 0)
  rwa [← Writer.zeros_eq_put, List.length_replicate] at spends

theorem spends_parity (code : LdpcCode) :
    Spends (write (Writer.parity code)) (code.parityBits / 8) := by
  refine ⟨fun writer b after run => ?_, fun writer wanted available after room run => ?_⟩
  · have ended := Writer.parity_end code writer
    rw [show (Writer.parity code).run writer = (.ok b, after) from Except.ok.inj run] at ended
    cases ended with
    | written size room =>
      rw [← size]
      exact Writer.advances_append room
  · have ended := Writer.parity_end code writer
    rw [show (Writer.parity code).run writer = (.error (.bufferTooSmall wanted available), after)
      from Except.ok.inj run] at ended
    cases ended with
    | short full => exact absurd full (Nat.not_lt.mpr room)
    | answered known answers => exact ⟨_, known, answers⟩

/-- Steps in a row take the sum of what each takes. -/
theorem spends_forM {items : List α} {step : α → Encode Unit} {size : α → Nat}
    (each : ∀ item ∈ items, Spends (step item) (size item)) :
    Spends (items.forM step) (items.map size).sum := by
  induction items with
  | nil => exact spends_pure ()
  | cons item rest ih =>
    rw [List.map_cons, List.sum_cons]
    exact (each item (.head _)).bind fun _ => ih fun other member => each other (.tail _ member)

theorem spends_mapM {items : List α} {step : α → Encode β}
    (each : ∀ item ∈ items, Spends (step item) 0) : Spends (items.mapM step) 0 := by
  induction items with
  | nil => exact spends_pure []
  | cons item rest ih =>
    rw [List.mapM_cons]
    have others := ih fun other member => each other (.tail _ member)
    exact (each item (.head _)).free_bind fun _ => others.free_bind fun _ => spends_pure _

end Encode

end PacketSpec
