import PacketSpec.Proofs.Codec.Reading
import PacketSpec.Proofs.Codec.Writing

/-! Values written one after the other are read back one after the other. A value that does not fit
is refused and leaves the writer as it is, so a run of writes holds the values that did fit. The
parity of a code is not among these values: it is never read. -/
namespace PacketSpec.Wire

inductive WordSize where
  | one
  | two
  | four
  | eight
  deriving DecidableEq, Repr

def WordSize.bytes : WordSize → Nat
  | .one => 1
  | .two => 2
  | .four => 4
  | .eight => 8

/-- A place on the wire, with all that must be known to read it. -/
inductive Slot where
  | unsigned (size : WordSize)
  | signed (size : WordSize)
  | rational
  | array (size : Nat)
  | slice (size : Nat)
  | text (capacity : Nat)
  /-- Zeros that are skipped. -/
  | gap (size : Nat)
  deriving DecidableEq, Repr

namespace Slot

abbrev Value : Slot → Type
  | .unsigned _ => Nat
  | .signed _ => Int
  | .rational => Rational
  | .array _ | .slice _ => Bytes
  | .text capacity => FixedText capacity
  | .gap _ => Unit

def size : Slot → Nat
  | .unsigned size | .signed size => size.bytes
  | .rational => 8
  | .array size | .slice size | .gap size => size
  | .text capacity => capacity

def Fits : (slot : Slot) → slot.Value → Prop
  | .unsigned size, n => n < 1 <<< (8 * size.bytes)
  | .signed size, n => FitsSigned (8 * size.bytes) n
  | .rational, value => FitsSigned 32 value.num ∧ FitsSigned 32 value.den
  | .array size, bytes | .slice size, bytes => bytes.length = size
  | .text _, _ | .gap _, _ => True

instance : (slot : Slot) → (value : slot.Value) → Decidable (slot.Fits value)
  | .unsigned _, _ => inferInstanceAs (Decidable (_ < _))
  | .signed _, _ => inferInstanceAs (Decidable (FitsSigned _ _))
  | .rational, _ => inferInstanceAs (Decidable (_ ∧ _))
  | .array _, _ | .slice _, _ => inferInstanceAs (Decidable (_ = _))
  | .text _, _ | .gap _, _ => inferInstanceAs (Decidable True)

def put : (slot : Slot) → slot.Value → Write Unit
  | .unsigned size, n => Writer.unsigned size.bytes n
  | .signed size, n => Writer.signed size.bytes n
  | .rational, value => Writer.rational value
  | .array _, bytes | .slice _, bytes => Writer.put bytes
  | .text _, content => Writer.fixedText content
  | .gap size, _ => Writer.zeros size

def get : (slot : Slot) → StateM Reader slot.Value
  | .unsigned size => Reader.unsigned size.bytes
  | .signed size => Reader.signed size.bytes
  | .rational => Reader.rational
  | .array size => Reader.array size
  | .slice size => Reader.slice size
  | .text capacity => Reader.fixedText capacity
  | .gap size => Reader.skip size

def bytes : (slot : Slot) → slot.Value → Bytes
  | .unsigned size, n => bigEndian size.bytes n
  | .signed size, n => bigEndian size.bytes (ofSigned (8 * size.bytes) n)
  | .rational, value =>
    bigEndian 4 (ofSigned 32 value.num) ++ bigEndian 4 (ofSigned 32 value.den)
  | .array _, bytes | .slice _, bytes => bytes
  | .text _, content => content.raw
  | .gap size, _ => List.replicate size 0

theorem put_eq (slot : Slot) (value : slot.Value) :
    slot.put value = Writer.put (slot.bytes value) := by
  cases slot with
  | gap size => exact Writer.zeros_eq_put size
  | unsigned | signed | rational | array | slice | text => rfl

theorem length_bytes {slot : Slot} {value : slot.Value} (fits : slot.Fits value) :
    (slot.bytes value).length = slot.size := by
  cases slot with
  | unsigned | signed => exact length_bigEndian _ _
  | rational => simp [bytes, size]
  | array | slice => exact fits
  | text => exact FixedText.length_raw value
  | gap => exact List.length_replicate

end Slot

/-- The step takes the bytes and gives the result, whatever stands before and after them. -/
def Reads {α : Type} (step : StateM Reader α) (bytes : Bytes) (result : α) : Prop :=
  ∀ front rest, step ⟨front ++ bytes ++ rest, front.length⟩ =
    (result, ⟨front ++ bytes ++ rest, (front ++ bytes).length⟩)

theorem reads_of_parses {α : Type} {step : StateM Reader α} {bytes : Bytes} {result : α}
    (parses : Decode.Parses (Decode.read step) (bitsOfBytes bytes) result) :
    Reads step bytes result := by
  intro front rest
  have run := parses.reads front bytes rest rfl
  rw [Decode.read_run] at run
  injection run with run
  rw [Prod.mk.injEq, Except.ok.injEq] at run
  exact Prod.ext run.1 run.2

theorem Slot.get_reads {slot : Slot} {value : slot.Value} (fits : slot.Fits value) :
    Reads slot.get (slot.bytes value) value := by
  cases slot with
  | unsigned size =>
    have whole : 8 * (8 * size.bytes / 8) = 8 * size.bytes := by omega
    have parses := Decode.parses_unsigned whole value
    rw [Nat.mod_eq_of_lt fits, ← bitsOfBytes_bigEndian,
      Nat.mul_div_cancel_left _ (by decide)] at parses
    exact reads_of_parses parses
  | signed size =>
    have positive : 0 < 8 * size.bytes := by cases size <;> decide
    have parses := Decode.parses_signed (by omega) positive fits
    rw [← bitsOfBytes_bigEndian, Nat.mul_div_cancel_left _ (by decide)] at parses
    exact reads_of_parses parses
  | rational =>
    apply reads_of_parses
    have parses := Decode.parses_rational fits.1 fits.2
    rwa [← bitsOfBytes_bigEndian 4, ← bitsOfBytes_bigEndian 4, ← bitsOfBytes_append] at parses
  | array size =>
    have parses := Decode.parses_array value
    rw [show List.length value = size from fits] at parses
    exact reads_of_parses parses
  | slice size =>
    have parses := Decode.parses_slice value
    rw [show List.length value = size from fits] at parses
    exact reads_of_parses parses
  | text capacity => exact reads_of_parses (Decode.parses_fixedText value)
  | gap size => exact fun front rest => Decode.skip_run front _ rest List.length_replicate

structure Item where
  slot : Slot
  value : slot.Value
  fits : slot.Fits value

namespace Item

def size (item : Item) : Nat := item.slot.size

def put (item : Item) : Write Unit := item.slot.put item.value

def bytes (item : Item) : Bytes := item.slot.bytes item.value

def entry (item : Item) : Sigma Slot.Value := ⟨item.slot, item.value⟩

@[simp] theorem length_bytes (item : Item) : item.bytes.length = item.size :=
  Slot.length_bytes item.fits

theorem get_reads (item : Item) : Reads item.slot.get item.bytes item.value :=
  Slot.get_reads item.fits

/-- A value is written whole, or the writer stays as it is. -/
theorem put_run (item : Item) (writer : Writer) :
    item.put.run writer =
      if writer.remaining < item.size then
        (.error (.bufferTooSmall item.size writer.remaining), writer)
      else (.ok (), writer.append item.bytes) := by
  rw [put, Slot.put_eq, Writer.put_run]
  exact item.length_bytes ▸ rfl

end Item

def totalSize : List Item → Nat
  | [] => 0
  | item :: rest => item.size + totalSize rest

def bytesOf (items : List Item) : Bytes := items.flatMap Item.bytes

@[simp] theorem length_bytesOf (items : List Item) : (bytesOf items).length = totalSize items := by
  induction items with
  | nil => rfl
  | cons item rest ih =>
    rw [bytesOf, List.flatMap_cons, List.length_append, Item.length_bytes]
    exact congrArg (item.size + ·) ih

def readAll (slots : List Slot) : StateM Reader (List (Sigma Slot.Value)) :=
  slots.mapM fun slot => do return ⟨slot, ← slot.get⟩

/-- Writes one item after the other and goes on where one is refused. -/
def attempt (items : List Item) : StateM Writer (List (Except EncodeError Unit)) :=
  items.mapM fun item => item.put.run

theorem readAll_cons (slot : Slot) (slots : List Slot) (reader : Reader) :
    readAll (slot :: slots) reader =
      (⟨slot, (slot.get reader).1⟩ :: (readAll slots (slot.get reader).2).1,
        (readAll slots (slot.get reader).2).2) := by
  rw [readAll, List.mapM_cons]
  rfl

theorem attempt_cons (item : Item) (items : List Item) (writer : Writer) :
    attempt (item :: items) writer =
      ((item.put.run writer).1 :: (attempt items (item.put.run writer).2).1,
        (attempt items (item.put.run writer).2).2) := by
  rw [attempt, List.mapM_cons]
  rfl

theorem attempt_append (items more : List Item) (writer : Writer) :
    attempt (items ++ more) writer =
      ((attempt items writer).1 ++ (attempt more (attempt items writer).2).1,
        (attempt more (attempt items writer).2).2) := by
  induction items generalizing writer with
  | nil => rfl
  | cons item rest ih => rw [List.cons_append, attempt_cons, ih, attempt_cons, List.cons_append]

theorem length_attempt (items : List Item) (writer : Writer) :
    (attempt items writer).1.length = items.length := by
  induction items generalizing writer with
  | nil => rfl
  | cons item rest ih => rw [attempt_cons, List.length_cons, ih, List.length_cons]

/-- The items that are written where there is `room`: each one for which enough is left. -/
def fitting (room : Nat) : List Item → List Item
  | [] => []
  | item :: rest =>
    if item.size ≤ room then item :: fitting (room - item.size) rest else fitting room rest

theorem totalSize_fitting (room : Nat) (items : List Item) :
    totalSize (fitting room items) ≤ room := by
  induction items generalizing room with
  | nil => exact Nat.zero_le room
  | cons item rest ih =>
    unfold fitting
    split
    · next fits =>
      have := ih (room - item.size)
      rw [totalSize]
      omega
    · exact ih room

theorem Writer.remaining_append {writer : Writer} {bytes : Bytes}
    (room : writer.offset + bytes.length ≤ writer.buffer.length) :
    (writer.append bytes).remaining = writer.remaining - bytes.length := by
  rw [remaining, append_buffer_length room, append_offset, remaining]
  omega

theorem attempt_after {writer : Writer} (inside : writer.offset ≤ writer.buffer.length)
    (items : List Item) :
    (attempt items writer).2 = writer.append (bytesOf (fitting writer.remaining items)) := by
  induction items generalizing writer with
  | nil => exact (Writer.append_nil writer).symm
  | cons item rest ih =>
    rw [attempt_cons, item.put_run, fitting]
    by_cases full : writer.remaining < item.size
    · rw [if_pos full, if_neg (Nat.not_le.mpr full)]
      exact ih inside
    · have room : writer.offset + item.bytes.length ≤ writer.buffer.length := by
        rw [Writer.remaining] at full
        rw [item.length_bytes]
        omega
      rw [if_neg full, if_pos (Nat.not_lt.mp full)]
      have within : (writer.append item.bytes).offset ≤ (writer.append item.bytes).buffer.length := by
        rw [Writer.append_buffer_length room]
        exact room
      have later := ih within
      rw [Writer.remaining_append room, item.length_bytes, Writer.append_append room] at later
      exact later

theorem put_all_run {writer : Writer} (inside : writer.offset ≤ writer.buffer.length)
    {items : List Item} (enough : totalSize items ≤ writer.remaining) :
    (items.forM Item.put).run writer = (.ok (), writer.append (bytesOf items)) := by
  induction items generalizing writer with
  | nil =>
    rw [bytesOf, List.flatMap_nil, Writer.append_nil]
    rfl
  | cons item rest ih =>
    rw [totalSize] at enough
    have room : writer.offset + item.bytes.length ≤ writer.buffer.length := by
      rw [Writer.remaining] at enough
      rw [item.length_bytes]
      omega
    have within : (writer.append item.bytes).offset ≤ (writer.append item.bytes).buffer.length := by
      rw [Writer.append_buffer_length room]
      exact room
    have left : totalSize rest ≤ (writer.append item.bytes).remaining := by
      rw [Writer.remaining_append room, item.length_bytes]
      omega
    have later := ih within left
    rw [Writer.append_append room] at later
    change (item.put >>= fun _ => rest.forM Item.put).run writer = _
    rw [Writer.run_bind, item.put_run, if_neg (by omega)]
    exact later

theorem Writer.append_frame {writer : Writer} {bytes : Bytes} {position : Nat}
    (room : writer.offset + bytes.length ≤ writer.buffer.length)
    (outside : position < writer.offset ∨ writer.offset + bytes.length ≤ position) :
    (writer.append bytes).buffer[position]? = writer.buffer[position]? := by
  have front := length_take_append bytes room
  rw [append, splice]
  rcases outside with before | behind
  · rw [List.append_assoc, List.getElem?_append_left (by rw [List.length_take]; omega),
      List.getElem?_take_of_lt before]
  · rw [List.getElem?_append_right (by omega), front, List.getElem?_drop]
    congr 1
    omega

theorem readAll_reads (items : List Item) :
    Reads (readAll (items.map Item.slot)) (bytesOf items) (items.map Item.entry) := by
  induction items with
  | nil =>
    intro front rest
    rw [bytesOf, List.flatMap_nil, List.append_nil]
    rfl
  | cons item rest ih =>
    intro front back
    have one := item.get_reads front (bytesOf rest ++ back)
    have more := ih (front ++ item.bytes) back
    rw [List.map_cons, readAll_cons, bytesOf, List.flatMap_cons]
    simp only [bytesOf, List.append_assoc] at one more ⊢
    rw [one, more]
    rfl

structure Reader.Moves (reader after : Reader) : Prop where
  bytes : after.bytes = reader.bytes
  forward : reader.offset ≤ after.offset
  inside : after.offset ≤ after.bytes.length

theorem Reader.Moves.trans {reader middle after : Reader} (first : reader.Moves middle)
    (second : middle.Moves after) : reader.Moves after :=
  ⟨second.bytes.trans first.bytes, Nat.le_trans first.forward second.forward, second.inside⟩

theorem take?_moves {reader : Reader} (inside : reader.offset ≤ reader.bytes.length)
    (count : Nat) : reader.Moves (Reader.take? count reader).2 := by
  unfold Reader.take?
  split
  · next enough =>
    rw [Reader.remaining] at enough
    exact ⟨rfl, Nat.le_add_right _ _, by dsimp only; omega⟩
  · exact ⟨rfl, Nat.le_refl _, inside⟩

theorem rational_after (reader : Reader) :
    (Reader.rational reader).2 = (Reader.take? 8 reader).2 := by
  simp only [Reader.rational, bind, StateT.bind]
  rcases Reader.take? 8 reader with ⟨_ | _, _⟩ <;> rfl

theorem Slot.get_moves {reader : Reader} (inside : reader.offset ≤ reader.bytes.length)
    (slot : Slot) : reader.Moves (slot.get reader).2 := by
  have clamped (size : Nat) : reader.Moves
      { reader with offset := reader.offset + min size reader.remaining } :=
    ⟨rfl, Nat.le_add_right _ _, by rw [Reader.remaining]; dsimp only; omega⟩
  cases slot with
  | unsigned | signed | array | text => exact take?_moves inside _
  | rational =>
    rw [Slot.get, rational_after]
    exact take?_moves inside 8
  | slice size => exact clamped size
  | gap size => exact clamped size

theorem readAll_moves {reader : Reader} (inside : reader.offset ≤ reader.bytes.length)
    (slots : List Slot) : reader.Moves (readAll slots reader).2 := by
  induction slots generalizing reader with
  | nil => exact ⟨rfl, Nat.le_refl _, inside⟩
  | cons slot rest ih =>
    have first := Slot.get_moves inside slot
    rw [readAll_cons]
    exact first.trans (ih first.inside)

theorem readAll_append (slots more : List Slot) (reader : Reader) :
    (readAll (slots ++ more) reader).2 = (readAll more (readAll slots reader).2).2 := by
  induction slots generalizing reader with
  | nil => rfl
  | cons slot rest ih =>
    rw [List.cons_append, readAll_cons, readAll_cons]
    exact ih _

/-- The second writer is the first one with the items written at its cursor: nothing else has
changed, and the items are read from there whatever follows. -/
structure Writer.Wrote (writer : Writer) (items : List Item) (after : Writer) : Prop where
  offset : after.offset = writer.offset + totalSize items
  length : after.buffer.length = writer.buffer.length
  ldpc : after.ldpc = writer.ldpc
  frame : ∀ position, position < writer.offset ∨ after.offset ≤ position →
    after.buffer[position]? = writer.buffer[position]?
  readBack : ∀ rest, readAll (items.map Item.slot) ⟨after.written ++ rest, writer.offset⟩ =
    (items.map Item.entry, ⟨after.written ++ rest, after.offset⟩)

theorem wrote_append {writer : Writer} {items : List Item}
    (room : writer.offset + totalSize items ≤ writer.buffer.length) :
    writer.Wrote items (writer.append (bytesOf items)) := by
  rw [← length_bytesOf] at room
  have offset : (writer.append (bytesOf items)).offset = writer.offset + (bytesOf items).length := rfl
  refine ⟨by rw [offset, length_bytesOf], Writer.append_buffer_length room, rfl, ?_, ?_⟩
  · intro position outside
    exact Writer.append_frame room outside
  · intro rest
    have start : writer.written.length = writer.offset := by
      rw [Writer.written, List.length_take]
      omega
    have read := readAll_reads items writer.written rest
    rw [Writer.append_written room, offset, ← start, ← List.length_append]
    exact read

theorem attempt_wrote {writer : Writer} (inside : writer.offset ≤ writer.buffer.length)
    (items : List Item) :
    writer.Wrote (fitting writer.remaining items) (attempt items writer).2 := by
  have enough := totalSize_fitting writer.remaining items
  rw [attempt_after inside]
  apply wrote_append
  rw [Writer.remaining] at enough ⊢
  omega

theorem attempt_inside {writer : Writer} (inside : writer.offset ≤ writer.buffer.length)
    (items : List Item) :
    (attempt items writer).2.offset ≤ (attempt items writer).2.buffer.length := by
  have enough := totalSize_fitting writer.remaining items
  have wrote := attempt_wrote inside items
  rw [wrote.length, wrote.offset]
  rw [Writer.remaining] at enough ⊢
  omega

theorem put_wrote {writer : Writer} (inside : writer.offset ≤ writer.buffer.length) {item : Item}
    (enough : item.size ≤ writer.remaining) :
    ∃ after, item.put.run writer = (.ok (), after) ∧ writer.Wrote [item] after := by
  have bytes : bytesOf [item] = item.bytes := List.append_nil _
  refine ⟨writer.append item.bytes, ?_, bytes ▸ wrote_append ?_⟩
  · rw [item.put_run, if_neg (Nat.not_lt.mpr enough)]
  · rw [Writer.remaining] at enough
    rw [totalSize, totalSize]
    omega

/-- Items that fit in the rest of a buffer are all written, and a reader at the place where the
writer stood gives them back. In a run that goes on after refused writes, each item is refused with
its size and the room that is left, which changes nothing, or written; what was written is read
back. Whatever is read, a reader's cursor never goes back and never leaves its bytes. -/
theorem reader_undoes_writer (writer : Writer) (inside : writer.offset ≤ writer.buffer.length)
    (items : List Item) :
    (totalSize items ≤ writer.remaining →
      ∃ after, (items.forM Item.put).run writer = (.ok (), after) ∧ writer.Wrote items after) ∧
    (∀ earlier item later, items = earlier ++ item :: later →
      let middle := (attempt earlier writer).2
      (attempt items writer).1[earlier.length]? = some (item.put.run middle).1 ∧
      (middle.remaining < item.size →
        item.put.run middle = (.error (.bufferTooSmall item.size middle.remaining), middle)) ∧
      (item.size ≤ middle.remaining →
        ∃ after, item.put.run middle = (.ok (), after) ∧ middle.Wrote [item] after)) ∧
    writer.Wrote (fitting writer.remaining items) (attempt items writer).2 ∧
    (∀ bytes slots more,
      let middle := (readAll slots ⟨bytes, 0⟩).2
      let after := (readAll (slots ++ more) ⟨bytes, 0⟩).2
      middle.offset ≤ after.offset ∧ after.offset ≤ bytes.length) := by
  refine ⟨?_, ?_, attempt_wrote inside items, ?_⟩
  · intro enough
    refine ⟨_, put_all_run inside enough, wrote_append ?_⟩
    rw [Writer.remaining] at enough
    omega
  · rintro earlier item later rfl middle
    refine ⟨?_, ?_, put_wrote (attempt_inside inside earlier)⟩
    · rw [attempt_append, attempt_cons, ← length_attempt earlier writer,
        List.getElem?_append_right (Nat.le_refl _), Nat.sub_self]
      rfl
    · intro full
      rw [item.put_run, if_pos full]
  · intro bytes slots more
    have first : Reader.Moves ⟨bytes, 0⟩ _ := readAll_moves (Nat.zero_le _) slots
    have second := readAll_moves first.inside more
    have inside := second.inside
    rw [(first.trans second).bytes] at inside
    rw [readAll_append]
    exact ⟨second.forward, inside⟩

def sampleWriter : Writer where
  buffer := List.replicate 17 0xaa
  offset := 1

def sampleItems : List Item := [
  ⟨.unsigned .two, (0x4242 : Nat), by decide⟩,
  ⟨.signed .one, (-1 : Int), by decide⟩,
  ⟨.rational, ⟨1, -2⟩, by decide⟩,
  ⟨.text 4, .ofBytes 4 [0x61, 0x62], trivial⟩,
  ⟨.gap 9, (), trivial⟩,
  ⟨.slice 1, [0x7f], rfl⟩]

/-- The gap does not fit behind the text, the last byte does. -/
theorem sampleItems_attempted :
    sampleWriter.offset ≤ sampleWriter.buffer.length ∧
    (attempt sampleItems sampleWriter).1 =
      [.ok (), .ok (), .ok (), .ok (), .error (.bufferTooSmall 9 1), .ok ()] ∧
    (attempt sampleItems sampleWriter).2.buffer =
      [0xaa, 0x42, 0x42, 0xff, 0, 0, 0, 1, 0xff, 0xff, 0xff, 0xfe, 0x61, 0x62, 0, 0, 0x7f] ∧
    sampleWriter.Wrote (fitting sampleWriter.remaining sampleItems)
      (attempt sampleItems sampleWriter).2 ∧
    ∃ after, ((sampleItems.take 4).forM Item.put).run sampleWriter = (.ok (), after) ∧
      sampleWriter.Wrote (sampleItems.take 4) after := by
  have inside : sampleWriter.offset ≤ sampleWriter.buffer.length := by decide
  refine ⟨inside, rfl, by decide +kernel, ?_, ?_⟩
  · exact (reader_undoes_writer sampleWriter inside sampleItems).2.2.1
  · exact (reader_undoes_writer sampleWriter inside (sampleItems.take 4)).1 (by decide)

end PacketSpec.Wire
