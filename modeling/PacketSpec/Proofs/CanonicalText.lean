import PacketSpec.Proofs.Codec.Reading
import PacketSpec.Proofs.Codec.Writing

/-! Whether a fixed text is told by its content. It is where nothing but zeros follows the first
zero byte. All ways to come by a text fill it up with zeros, but none of them clears what stands
behind a zero in the bytes that it is given, so a text can hold more than its content. -/
namespace PacketSpec.Wire

def ZerosLast (bytes : Bytes) : Prop :=
  bytes.Pairwise fun earlier later => earlier = 0 → later = 0

theorem zerosLast_replicate (count : Nat) : ZerosLast (List.replicate count 0) :=
  List.pairwise_replicate.mpr (.inr fun zero => zero)

theorem zerosLast_append_zeros {bytes : Bytes} {count : Nat} :
    ZerosLast (bytes ++ List.replicate count 0) ↔ ZerosLast bytes := by
  unfold ZerosLast
  rw [List.pairwise_append]
  constructor
  · exact fun both => both.1
  · intro last
    refine ⟨last, zerosLast_replicate count, ?_⟩
    intro earlier _ later member _
    exact List.eq_of_mem_replicate member

theorem zerosLast_iff_dropWhile {bytes : Bytes} :
    ZerosLast bytes ↔ ∀ b ∈ bytes.dropWhile (· != 0), b = 0 := by
  induction bytes with
  | nil => simp [ZerosLast]
  | cons b rest ih =>
    by_cases zero : b = 0
    · subst zero
      rw [List.dropWhile_cons_of_neg (by simp), List.forall_mem_cons]
      constructor
      · intro last
        exact ⟨rfl, fun later member => (List.pairwise_cons.mp last).1 later member rfl⟩
      · rintro ⟨-, zeros⟩
        refine List.pairwise_cons.mpr ⟨fun later member _ => zeros later member, ?_⟩
        exact ih.mpr fun later member => zeros later ((List.dropWhile_sublist _).mem member)
    · rw [List.dropWhile_cons_of_pos (by simpa using zero), ← ih, ZerosLast, List.pairwise_cons]
      exact and_iff_right fun later _ same => absurd same zero

namespace FixedText

variable {capacity : Nat} {text other : FixedText capacity}

theorem eq_of_raw (same : text.raw = other.raw) : text = other := by
  cases text
  cases other
  cases same
  rfl

theorem length_content_le (text : FixedText capacity) : text.content.length ≤ capacity := by
  calc text.content.length ≤ text.raw.length := (List.takeWhile_sublist _).length_le
    _ = capacity := text.length_raw

theorem ne_zero_of_mem_content {b : UInt8} (member : b ∈ text.content) : b ≠ 0 := by
  simpa using List.all_eq_true.mp List.all_takeWhile b member

def filled (text : FixedText capacity) : Bytes :=
  text.content ++ List.replicate (capacity - text.length) 0

theorem length_filled (text : FixedText capacity) : text.filled.length = capacity := by
  have short := text.length_content_le
  rw [filled, length, List.length_append, List.length_replicate]
  omega

theorem raw_ofBytes_content (text : FixedText capacity) :
    (ofBytes capacity text.content).raw = text.filled := by
  show text.content.take capacity ++ _ = _
  rw [List.take_of_length_le text.length_content_le]
  rfl

theorem content_ofBytes_content (text : FixedText capacity) :
    (ofBytes capacity text.content).content = text.content := by
  show (ofBytes capacity text.content).raw.takeWhile _ = _
  rw [raw_ofBytes_content, filled, List.takeWhile_append_of_pos]
  · simp
  · intro b member
    simpa using ne_zero_of_mem_content member

def Canonical (text : FixedText capacity) : Prop := ZerosLast text.raw

/-- Writing the text puts its content and then zeros up to the capacity, or nothing where there is
no room for that. -/
def WritesContent (text : FixedText capacity) : Prop :=
  ∀ writer : Writer, (Writer.fixedText text).run writer =
    if writer.remaining < capacity then
      (.error (.bufferTooSmall capacity writer.remaining), writer)
    else (.ok (), writer.append text.filled)

theorem canonical_ofBytes {bytes : Bytes} :
    (ofBytes capacity bytes).Canonical ↔ ZerosLast (bytes.take capacity) := zerosLast_append_zeros

theorem canonical_empty : (empty capacity).Canonical := zerosLast_replicate capacity

theorem canonical_iff_raw : text.Canonical ↔ text.raw = text.filled := by
  have split : text.raw = text.content ++ text.raw.dropWhile (· != 0) :=
    List.takeWhile_append_dropWhile.symm
  have behind : (text.raw.dropWhile (· != 0)).length = capacity - text.length := by
    have total := congrArg List.length split
    rw [text.length_raw, List.length_append] at total
    rw [length]
    omega
  rw [Canonical, zerosLast_iff_dropWhile]
  constructor
  · intro zeros
    rw [split, List.eq_replicate_iff.mpr ⟨behind, zeros⟩]
    rfl
  · intro whole
    exact (List.eq_replicate_iff.mp (List.append_cancel_left (split.symm.trans whole))).2

theorem canonical_iff_ofBytes_content :
    text.Canonical ↔ ofBytes capacity text.content = text := by
  rw [canonical_iff_raw, ← raw_ofBytes_content]
  constructor
  · exact fun same => eq_of_raw same.symm
  · exact fun same => (congrArg raw same).symm

theorem canonical_ofBytes_content (text : FixedText capacity) :
    (ofBytes capacity text.content).Canonical := by
  rw [canonical_iff_ofBytes_content, content_ofBytes_content]

theorem fixedText_run (text : FixedText capacity) (writer : Writer) :
    (Writer.fixedText text).run writer =
      if writer.remaining < capacity then
        (.error (.bufferTooSmall capacity writer.remaining), writer)
      else (.ok (), writer.append text.raw) := by
  rw [Writer.fixedText, Writer.put_run, text.length_raw]

theorem canonical_iff_writesContent : text.Canonical ↔ text.WritesContent := by
  rw [canonical_iff_raw]
  constructor
  · intro same writer
    rw [fixedText_run, same]
  · intro writes
    -- a buffer of just the capacity shows all that is written
    have run := writes { buffer := List.replicate capacity 0 }
    have room : ¬ Writer.remaining { buffer := List.replicate capacity 0 } < capacity := by
      simp [Writer.remaining]
    rw [fixedText_run, if_neg room, if_neg room, Prod.mk.injEq] at run
    have buffers := congrArg Writer.buffer run.2
    simpa [Writer.append, Writer.splice, text.length_raw, text.length_filled] using buffers

/-- Canonical texts are told apart by their contents, and only they are. -/
theorem canonical_iff_told_by_content :
    text.Canonical ↔ ∀ other : FixedText capacity, other.Canonical →
      (text = other ↔ text.content = other.content) := by
  constructor
  · intro canonical other also
    refine ⟨congrArg content, fun same => ?_⟩
    rw [← canonical_iff_ofBytes_content.mp canonical, same, canonical_iff_ofBytes_content.mp also]
  · intro told
    have same := (told _ text.canonical_ofBytes_content).mpr text.content_ofBytes_content.symm
    exact canonical_iff_ofBytes_content.mpr same.symm

end FixedText

inductive TextSource where
  | ofString (text : String)
  | ofBytes (bytes : Bytes)
  | empty
  /-- Reading at the cursor. -/
  | reading (reader : Reader)

namespace TextSource

def make (capacity : Nat) : TextSource → FixedText capacity
  | .ofString text => .ofString capacity text
  | .ofBytes bytes => .ofBytes capacity bytes
  | .empty => .empty capacity
  | .reading reader => (Reader.fixedText capacity reader).1

/-- What the source gives, cut off at the capacity. A buffer with fewer bytes gives nothing. -/
def given (capacity : Nat) : TextSource → Bytes
  | .ofString text => (Utf8.ofString text).take capacity
  | .ofBytes bytes => bytes.take capacity
  | .empty => []
  | .reading reader =>
    if capacity ≤ reader.remaining then (reader.bytes.drop reader.offset).take capacity else []

theorem make_reading (capacity : Nat) (reader : Reader) :
    make capacity (.reading reader) =
      if capacity ≤ reader.remaining then
        .ofBytes capacity ((reader.bytes.drop reader.offset).take capacity)
      else .empty capacity := by
  show ((Reader.take? capacity reader).1.map (FixedText.ofBytes capacity)).getD _ = _
  unfold Reader.take?
  split <;> rfl

theorem canonical_make {capacity : Nat} {source : TextSource} :
    (source.make capacity).Canonical ↔ ZerosLast (source.given capacity) := by
  have nothing : ZerosLast [] := List.Pairwise.nil
  cases source with
  | ofString text => exact FixedText.canonical_ofBytes
  | ofBytes bytes => exact FixedText.canonical_ofBytes
  | empty => exact iff_of_true FixedText.canonical_empty nothing
  | reading reader =>
    rw [make_reading, given]
    split
    · rw [FixedText.canonical_ofBytes, List.take_take, Nat.min_self]
    · exact iff_of_true FixedText.canonical_empty nothing

end TextSource

/-- A text is canonical just where the bytes that it was made of have nothing but zeros behind a
zero. Just then it is written as its content and zeros, equals each canonical text of the same
content, and is made anew of its content. -/
theorem canonical_iff_zerosLast (capacity : Nat) (source : TextSource) :
    ((source.make capacity).Canonical ↔ ZerosLast (source.given capacity)) ∧
    ((source.make capacity).Canonical ↔ (source.make capacity).WritesContent) ∧
    ((source.make capacity).Canonical ↔
      ∀ other : TextSource, (other.make capacity).Canonical →
        (source.make capacity = other.make capacity ↔
          (source.make capacity).content = (other.make capacity).content)) ∧
    ((source.make capacity).Canonical ↔
      FixedText.ofBytes capacity (source.make capacity).content = source.make capacity) := by
  refine ⟨TextSource.canonical_make, FixedText.canonical_iff_writesContent, ?_,
    FixedText.canonical_iff_ofBytes_content⟩
  rw [FixedText.canonical_iff_told_by_content]
  constructor
  · exact fun told other canonical => told _ canonical
  · intro told other canonical
    -- every text is made of its own bytes
    have own : TextSource.make capacity (.ofBytes other.raw) = other := Decode.ofBytes_raw other
    rw [← own] at canonical ⊢
    exact told _ canonical

/-- A text that is read from a buffer with a letter behind a zero keeps the letter. It is not
written as its content and zeros, and differs from the text that is made of its content. -/
theorem letter_behind_zero_kept :
    ∃ text : FixedText 4,
      Reader.fixedText 4 ⟨[0x61, 0, 0x62, 0], 0⟩ = (text, ⟨[0x61, 0, 0x62, 0], 4⟩) ∧
      text.raw = [0x61, 0, 0x62, 0] ∧ text.content = [0x61] ∧ ¬ text.Canonical ∧
      (∃ after : Writer, (Writer.fixedText text).run { buffer := List.replicate 4 0 } =
        (.ok (), after) ∧ after.buffer = [0x61, 0, 0x62, 0]) ∧
      (FixedText.ofBytes 4 [0x61]).content = text.content ∧ FixedText.ofBytes 4 [0x61] ≠ text ∧
      FixedText.ofBytes 4 text.content ≠ text := by
  refine ⟨.ofBytes 4 [0x61, 0, 0x62, 0], rfl, rfl, rfl, ?_, ⟨_, rfl, rfl⟩, rfl, by decide,
    by decide⟩
  simp [FixedText.canonical_ofBytes, ZerosLast]

end PacketSpec.Wire
