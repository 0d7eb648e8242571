import PacketSpec.Proofs.Codec.Spending

/-! Writing leaves what stands before the cursor, whatever value is written and whatever parity
encoder the writer has. -/
namespace PacketSpec

namespace Wire.Writer

structure Continues (writer after : Writer) : Prop where
  offset : writer.offset ≤ after.offset
  written : after.buffer.take writer.offset = writer.written
  ldpc : after.ldpc = writer.ldpc

theorem Continues.refl (writer : Writer) : writer.Continues writer :=
  ⟨Nat.le_refl _, rfl, rfl⟩

theorem Continues.trans {writer middle after : Writer} (one : writer.Continues middle)
    (other : middle.Continues after) : writer.Continues after := by
  refine ⟨Nat.le_trans one.offset other.offset, ?_, other.ldpc.trans one.ldpc⟩
  calc after.buffer.take writer.offset
    _ = (after.buffer.take middle.offset).take writer.offset := by
      rw [List.take_take, Nat.min_eq_left one.offset]
    _ = (middle.buffer.take middle.offset).take writer.offset := by
      rw [other.written, Writer.written]
    _ = middle.buffer.take writer.offset := by
      rw [List.take_take, Nat.min_eq_left one.offset]
    _ = writer.written := one.written

theorem continues_append {writer : Writer} {bytes : Bytes}
    (room : bytes.length ≤ writer.remaining) :
    writer.Continues (writer.append bytes) := by
  refine ⟨by simp, ?_, rfl⟩
  rw [Writer.remaining] at room
  by_cases inside : writer.offset ≤ writer.buffer.length
  · have length : (writer.buffer.take writer.offset).length = writer.offset := by
      rw [List.length_take]
      omega
    show (splice writer.buffer writer.offset bytes).take writer.offset = _
    rw [splice, List.append_assoc, List.take_left' length, Writer.written]
  · obtain rfl : bytes = [] := List.eq_nil_of_length_eq_zero (by omega)
    rw [append_nil, Writer.written]

theorem bytesAt_append {writer : Writer} {bytes : Bytes}
    (room : writer.offset + bytes.length ≤ writer.buffer.length) :
    (writer.append bytes).bytesAt writer.offset bytes.length = bytes := by
  have length : (writer.buffer.take writer.offset).length = writer.offset := by
    rw [List.length_take]
    omega
  show ((splice writer.buffer writer.offset bytes).drop writer.offset).take bytes.length = bytes
  rw [splice, List.append_assoc, List.drop_left' length, List.take_left' rfl]

theorem length_bytesAt {writer : Writer} {start size : Nat}
    (inside : start + size ≤ writer.buffer.length) : (writer.bytesAt start size).length = size := by
  rw [Writer.bytesAt, List.length_take, List.length_drop]
  omega

/-- The bytes up to a place are those since another one if and only if they are as many. -/
theorem bytesAt_eq_iff {writer : Writer} {start stop size : Nat} (order : start ≤ stop)
    (behind : size ≤ stop) (inside : stop ≤ writer.buffer.length) :
    writer.bytesAt (stop - size) size = writer.bytesAt start (stop - start) ↔
      size = stop - start := by
  constructor
  · intro same
    have sizes := congrArg List.length same
    rwa [length_bytesAt (by omega), length_bytesAt (by omega)] at sizes
  · rintro rfl
    rw [Nat.sub_sub_self order]

/-- What stood before the cursor is found again. -/
theorem Continues.bytesAt {writer after : Writer} (continues : writer.Continues after)
    {start size : Nat} (behind : start + size ≤ writer.offset) :
    after.bytesAt start size = writer.bytesAt start size := by
  have kept := continues.written
  have slice (buffer : Bytes) : (buffer.drop start).take size =
      ((buffer.take writer.offset).drop start).take size := by
    rw [List.drop_take, List.take_take, Nat.min_eq_left (by omega)]
  rw [Writer.bytesAt, Writer.bytesAt, slice, kept, Writer.written, ← slice]

end Wire.Writer

namespace Encode

open Wire

variable {α β : Type}

/-- Whenever the step succeeds, what stood before the cursor is still there. -/
def Keeps (step : Encode α) : Prop :=
  ∀ ⦃writer a after⦄, step.run writer = .ok (.ok a, after) → writer.Continues after

theorem keeps_pure (a : α) : Keeps (pure a) := by
  intro writer b after run
  cases run
  exact .refl writer

theorem keeps_throw (e : EncodeError) : Keeps (throw e : Encode α) := by
  intro writer b after run
  cases run

theorem keeps_check (result : Except Fault α) : Keeps (check result) := by
  intro writer b after run
  cases result with
  | error fault => cases run
  | ok a =>
    cases run
    exact .refl writer

theorem keeps_illTyped (field : Field) : Keeps (illTyped field : Encode α) := keeps_check _

theorem Keeps.bind {step : Encode α} {next : α → Encode β} (one : Keeps step)
    (other : ∀ a, Keeps (next a)) : Keeps (step >>= next) := by
  intro writer b after run
  obtain ⟨a, middle, stepped, run⟩ := run_bind_eq_ok.mp run
  exact (one stepped).trans (other a run)

theorem keeps_put (bytes : Bytes) : Keeps (write (Writer.put bytes)) := by
  intro writer b after run
  have run : (Writer.put bytes).run writer = (.ok b, after) := Except.ok.inj run
  rw [Writer.put_run] at run
  split at run
  · cases run
  · next room =>
    cases run
    exact Writer.continues_append (Nat.not_lt.mp room)

theorem keeps_zeros (size : Nat) : Keeps (write (Writer.zeros size)) := by
  rw [Writer.zeros_eq_put]
  exact keeps_put _

theorem keeps_parity (code : LdpcCode) : Keeps (write (Writer.parity code)) := by
  intro writer b after run
  have ended := Writer.parity_end code writer
  rw [show (Writer.parity code).run writer = (.ok b, after) from Except.ok.inj run] at ended
  cases ended with
  | written size room => exact Writer.continues_append room

theorem keeps_forM {items : List α} {step : α → Encode Unit} (each : ∀ item, Keeps (step item)) :
    Keeps (items.forM step) := by
  induction items with
  | nil => exact keeps_pure ()
  | cons item rest ih => exact (each item).bind fun _ => ih

theorem keeps_mapM {items : List α} {step : α → Encode β} (each : ∀ item, Keeps (step item)) :
    Keeps (items.mapM step) := by
  induction items with
  | nil => exact keeps_pure []
  | cons item rest ih =>
    rw [List.mapM_cons]
    exact (each item).bind fun _ => ih.bind fun _ => keeps_pure _

end Encode

namespace Codec

open Wire Encode

variable {nested : String → Option Encoder} {s : Struct} {record : Record}

theorem checkRange_keeps (field : Field) (n : Nat) : Keeps (checkRange s field n) := by
  unfold checkRange
  simp only
  split
  · exact keeps_throw _
  · exact keeps_pure ()

theorem packedValue_keeps (field : Field) : Keeps (packedValue s record field) := by
  unfold packedValue
  split
  · exact keeps_pure _
  · refine (keeps_check _).bind fun value => ?_
    split
    · split
      · exact keeps_pure _
      · exact (checkRange_keeps _ _).bind fun _ => keeps_pure _
    · exact (checkRange_keeps _ _).bind fun _ => keeps_pure _
    · exact keeps_illTyped _

theorem checkCount_keeps (field : Field) (value : Value) :
    Keeps (checkCount s record field value) := by
  unfold checkCount
  split
  · refine (keeps_check _).bind fun count => (keeps_check _).bind fun expected => ?_
    split
    · exact keeps_throw _
    · exact keeps_pure ()
  · exact keeps_pure ()

theorem encodeImplied_keeps (field : Field) : Keeps (encodeImplied s record field) := by
  unfold encodeImplied
  split
  · split
    · exact (keeps_check _).bind fun _ => (keeps_check _).bind fun _ => keeps_zeros _
    · exact (keeps_check _).bind fun _ => keeps_zeros _
  · exact keeps_parity _
  · exact keeps_pure ()
  · exact keeps_put _
  · exact keeps_put _
  · exact keeps_check _

section Nested

variable (parts : ∀ id encoder, nested id = some encoder → ∀ value, Keeps (encoder value))

include parts

theorem encodeElement_keeps (field : Field) (value : Value) :
    Keeps (encodeElement nested s field value) := by
  unfold encodeElement
  simp only
  split
  · exact keeps_put _
  · exact keeps_put _
  · exact keeps_put _
  · split
    · next encoder known => exact parts _ encoder known _
    · exact keeps_check _
  · exact (checkRange_keeps _ _).bind fun _ => keeps_put _
  · exact keeps_illTyped _

theorem encodeElements_keeps (field : Field) (value : Value) :
    Keeps (encodeElements nested s field value) := by
  unfold encodeElements
  split
  · exact encodeElement_keeps parts _ _
  · split
    · exact keeps_put _
    · exact keeps_illTyped _
  · exact keeps_forM fun element => encodeElement_keeps parts _ element
  · exact keeps_illTyped _

theorem encodeStored_keeps (field : Field) (value : Value) :
    Keeps (encodeStored nested s field value) := by
  unfold encodeStored
  simp only
  split
  · split
    · exact keeps_put _
    · exact keeps_illTyped _
    · exact encodeElements_keeps parts _ _
  · exact encodeElements_keeps parts _ _
  · exact encodeElements_keeps parts _ _
  · exact encodeElements_keeps parts _ _
  · exact keeps_put _
  · exact keeps_put _
  · exact keeps_put _
  · exact keeps_illTyped _

theorem encodeSegment_keeps (segment : Segment) :
    Keeps (encodeSegment nested s record segment) := by
  cases segment with
  | chunk chunk =>
    refine (keeps_mapM fun place => ?_).bind fun terms => keeps_put _
    exact (packedValue_keeps _).bind fun _ => keeps_pure _
  | aligned field =>
    simp only [encodeSegment, encodeAligned]
    split
    · exact (keeps_check _).bind fun value =>
        (checkCount_keeps _ _).bind fun _ => encodeStored_keeps parts _ _
    · exact encodeImplied_keeps _

theorem encodeStruct_keeps (window : Nat) (value : Value) :
    Keeps (encodeStruct window nested s value) := by
  unfold encodeStruct
  split
  · exact (keeps_check _).bind fun segments => keeps_forM fun segment => encodeSegment_keeps parts _
  · exact keeps_check _

end Nested

/-- Every structure's encoder leaves what stands before the cursor. -/
theorem meaningIn?_keeps {window : Nat} {structs : List Struct} :
    ∀ id encoder, meaningIn? (encodeStruct window) structs id = some encoder →
      ∀ value, Keeps (encoder value) := by
  induction structs with
  | nil =>
    intro id encoder known
    cases known
  | cons s earlier ih =>
    intro id encoder known value
    rw [meaningIn?] at known
    split at known
    · cases known
      exact encodeStruct_keeps ih window value
    · exact ih id encoder known value

end Codec

end PacketSpec
