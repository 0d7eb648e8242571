import PacketSpec.Proofs.Codec.Reading
import PacketSpec.Proofs.Codec.Static

/-!
Which reading steps move the cursor. None moves it back, but a step whose reads are all too long for
what is left of the input leaves it in place. A step that passes over bytes, or that reads a single
byte somewhere, moves it wherever there is input.
-/
namespace PacketSpec

open Wire

namespace Decode

variable {α β : Type}

/-- If the step gives a result, the reader has moved on in the same input, and by a byte at least
if the step is `sure` to move it and there is input. -/
def Moves (sure : Bool) (step : Decode α) : Prop :=
  ∀ reader a after, step.run reader = .ok (.ok a, after) →
    after.bytes = reader.bytes ∧ reader.offset ≤ after.offset ∧
      (sure = true → 0 < reader.remaining → reader.offset < after.offset)

theorem Moves.mono {sure less : Bool} {step : Decode α} (moves : Moves sure step)
    (implies : less = true → sure = true) : Moves less step := by
  intro reader a after run
  obtain ⟨same, forward, strict⟩ := moves reader a after run
  exact ⟨same, forward, fun needed => strict (implies needed)⟩

theorem Moves.unsure {sure : Bool} {step : Decode α} (moves : Moves sure step) :
    Moves false step := moves.mono (by simp)

theorem moves_pure (a : α) : Moves false (pure a) := by
  intro reader b after run
  cases run
  exact ⟨rfl, Nat.le_refl _, by simp⟩

theorem moves_throw {sure : Bool} {error : DecodeError} :
    Moves sure (throw error : Decode α) := by
  intro reader a after run
  cases run

theorem moves_fault {sure : Bool} {fault : Fault} :
    Moves sure (check (.error fault) : Decode α) := by
  intro reader a after run
  cases run

theorem moves_check {result : Except Fault α} : Moves false (check result) := by
  cases result with
  | error => exact moves_fault
  | ok a => exact moves_pure a

theorem moves_remaining : Moves false remaining := by
  intro reader b after run
  cases run
  exact ⟨rfl, Nat.le_refl _, by simp⟩

theorem Moves.bind {first second : Bool} {step : Decode α} {next : α → Decode β}
    (moves : Moves first step) (continues : ∀ a, Moves second (next a)) :
    Moves (first || second) (step >>= next) := by
  intro reader b after run
  obtain ⟨a, middle, one, two⟩ := run_bind_eq_ok.mp run
  obtain ⟨same, forward, strict⟩ := moves reader a middle one
  obtain ⟨alike, onward, further⟩ := continues a middle b after two
  refine ⟨alike.trans same, by omega, fun either available => ?_⟩
  rcases Bool.or_eq_true_iff.mp either with sure | sure
  · have := strict sure available
    omega
  · -- unless the first step has moved the reader, there is as much input for the second
    by_cases stays : middle.offset = reader.offset
    · have left : 0 < middle.remaining := by
        rwa [Reader.remaining, same, stays]
      have := further sure left
      omega
    · omega

theorem Moves.return {sure : Bool} {step : Decode α} (f : α → β) (moves : Moves sure step) :
    Moves sure (do return f (← step)) := by
  have both := moves.bind fun a => moves_pure (f a)
  rwa [Bool.or_false] at both

theorem Moves.map {sure : Bool} {step : Decode α} (f : α → β) (moves : Moves sure step) :
    Moves sure (f <$> step) := by
  rw [← bind_pure_comp]
  exact moves.return f

/-- A step that does not read may stand in front. -/
theorem Moves.after {sure : Bool} {step : Decode α} {next : α → Decode β} (first : Moves false step)
    (continues : ∀ a, Moves sure (next a)) : Moves sure (step >>= next) := by
  have both := first.bind continues
  rwa [Bool.false_or] at both

theorem moves_check_bind {sure : Bool} {result : Except Fault α} {next : α → Decode β}
    (continues : ∀ a, result = .ok a → Moves sure (next a)) :
    Moves sure (check result >>= next) := by
  intro reader b after run
  obtain ⟨a, middle, checked, rest⟩ := run_bind_eq_ok.mp run
  obtain ⟨known, rfl⟩ := check_run_eq_ok.mp checked
  exact continues a known middle b after rest

/-- A single byte can always be read where there is input. -/
theorem moves_whole {size : Nat} {action : StateM Reader α}
    (action_eq : ∀ reader, (action reader).2 = (Reader.take? size reader).2) :
    Moves (size == 1) (read action) := by
  intro reader a after run
  rw [read_run, action_eq] at run
  cases run
  unfold Reader.take?
  split
  · refine ⟨rfl, Nat.le_add_right _ _, fun single _ => ?_⟩
    have : size = 1 := by simpa using single
    show reader.offset < reader.offset + size
    omega
  · next short =>
    refine ⟨rfl, Nat.le_refl _, fun single available => ?_⟩
    have : size = 1 := by simpa using single
    omega

theorem moves_unsigned (size : Nat) : Moves (size == 1) (read (Reader.unsigned size)) :=
  moves_whole fun _ => rfl

theorem moves_signed (size : Nat) : Moves (size == 1) (read (Reader.signed size)) :=
  moves_whole fun _ => rfl

theorem moves_array (size : Nat) : Moves (size == 1) (read (Reader.array size)) :=
  moves_whole fun _ => rfl

theorem moves_fixedText (capacity : Nat) :
    Moves (capacity == 1) (read (Reader.fixedText capacity)) :=
  moves_whole fun _ => rfl

theorem moves_rational : Moves false (read Reader.rational) := by
  refine @moves_whole _ 8 _ fun reader => ?_
  simp only [Reader.rational, bind, StateT.bind]
  rcases Reader.take? 8 reader with ⟨_ | bytes, after⟩ <;> rfl

theorem moves_slice (size : Nat) : Moves false (read (Reader.slice size)) := by
  intro reader a after run
  cases run
  exact ⟨rfl, Nat.le_add_right _ _, by simp⟩

theorem moves_skip (size : Nat) : Moves (0 < size) (read (Reader.skip size)) := by
  intro reader a after run
  cases run
  refine ⟨rfl, Nat.le_add_right _ _, fun positive available => ?_⟩
  have : 0 < size := by simpa using positive
  show reader.offset < reader.offset + min size reader.remaining
  omega

theorem moves_times {sure : Bool} {element : Decode α} (each : Moves sure element) (count : Nat) :
    Moves (sure && decide (0 < count)) (times element count) := by
  induction count with
  | zero => exact (moves_pure []).mono (by simp)
  | succ count ih =>
    refine Moves.mono (each.bind fun first => ih.return (first :: ·)) ?_
    intro both
    simp_all

theorem moves_upTo {sure : Bool} {element : Decode α} (each : Moves sure element) (count : Nat) :
    Moves false (upTo element count) := by
  induction count with
  | zero => exact moves_pure []
  | succ count ih =>
    refine moves_remaining.after fun available => ?_
    split
    · exact moves_pure []
    · exact each.unsure.after fun first => ih.return (first :: ·)

theorem moves_foldlM {items : List α} {sure : α → Bool} {step : β → α → Decode β}
    (each : ∀ item ∈ items, ∀ b, Moves (sure item) (step b item)) (start : β) :
    Moves (items.any sure) (items.foldlM step start) := by
  induction items generalizing start with
  | nil => exact moves_pure start
  | cons item rest ih =>
    rw [List.foldlM_cons, List.any_cons]
    exact (each item (.head _) start).bind fun b =>
      ih (fun other member => each other (.tail _ member)) b

end Decode

namespace Codec

open Decode

section Sure

variable (nested : String → Bool)

def elementAdvances (field : Field) : Bool :=
  match field.shape with
  | .struct typeId => nested typeId
  | _ => field.width / 8 == 1

def fieldAdvances (field : Field) : Bool :=
  match field.shape, field.repetition with
  | .payload, _ | _, .fieldRef _ => false
  | .padding, _ | .parity _, _ => true
  | _, .constant _ => !field.isByteBuffer && elementAdvances nested field
  | _, .none => elementAdvances nested field

def segmentAdvances : Segment → Bool
  | .chunk shared => shared.width / 8 == 1
  | .aligned field => fieldAdvances nested field

end Sure

def structAdvances (window : Nat) (nested : String → Bool) (s : Struct) : Bool :=
  match layout window s with
  | .ok segments => segments.any (segmentAdvances nested)
  | .error _ => false

variable {model : Model} {nested : String → Option Decoder} {sure : String → Bool} {s : Struct}
  {record : Record} {field : Field} {parsed : Parsed}

theorem moves_checkFixed {actual expected : Nat} :
    Moves false (checkFixed s field actual expected) := by
  unfold checkFixed
  split
  · exact moves_pure ()
  · exact moves_throw

theorem decodePacked_moves {word : Nat} {packed : Packed Field} :
    Moves false (decodePacked model s word parsed packed) := by
  unfold decodePacked
  simp only
  split
  · exact moves_checkFixed.return fun _ => parsed
  · exact moves_check.return _
  · exact moves_pure _

theorem decodeChunk_moves {shared : Chunk Field} :
    Moves (shared.width / 8 == 1) (decodeChunk model s parsed shared) := by
  refine Moves.mono ((moves_unsigned _).bind fun word =>
    moves_foldlM (fun packed _ b => decodePacked_moves) parsed) ?_
  intro single
  rw [single]
  rfl

variable (parts : ∀ typeId decoder, nested typeId = some decoder → Moves (sure typeId) decoder)

include parts

theorem decodeElement_moves (formed : field.WellFormed) :
    Moves (elementAdvances sure field) (decodeElement model nested field) := by
  cases shape : field.shape with
  | scalar signed =>
    cases signed with
    | true =>
      simp only [decodeElement, elementAdvances, shape]
      exact (moves_signed _).return Value.signed
    | false =>
      simp only [decodeElement, elementAdvances, shape]
      exact (moves_unsigned _).return Value.unsigned
  | rational =>
    have admits := formed.shape
    simp only [shape, Shape.Admits] at admits
    simp only [decodeElement, elementAdvances, shape, admits]
    exact moves_rational.return Value.rational
  | struct typeId =>
    simp only [decodeElement, elementAdvances, shape]
    split
    · next decoder found => exact (parts typeId decoder found).map Prod.fst
    · exact moves_fault
  | enum typeId =>
    simp only [decodeElement, elementAdvances, shape]
    exact moves_check.after fun e => (moves_unsigned _).return fun n => Value.enum (e.ofNat n)
  | _ =>
    simp only [decodeElement, shape]
    exact moves_fault

theorem decodeElements_moves (formed : field.WellFormed) (header : field.shape ≠ .payload)
    (padded : field.shape ≠ .padding) (sized : field.shape.isParity = false) :
    Moves (fieldAdvances sure field) (decodeElements model nested s record field) := by
  have element := @decodeElement_moves model _ _ field parts formed
  unfold decodeElements
  simp only
  split
  · next single =>
    have same : fieldAdvances sure field = elementAdvances sure field := by
      cases shape : field.shape <;> simp_all [fieldAdvances, Shape.isParity]
    rw [same]
    exact element
  · next count several =>
    have same : fieldAdvances sure field =
        (!field.isByteBuffer && elementAdvances sure field) := by
      cases shape : field.shape <;> simp_all [fieldAdvances, Shape.isParity]
    have positive : 0 < count := Nat.lt_of_lt_of_le (by decide) (formed.several count several)
    rw [same]
    split
    · next raw => exact ((moves_array count).return Value.bytes).mono (by simp [raw])
    · next other =>
      refine ((moves_times element count).return Value.list).mono ?_
      simp [other, positive]
  · next index counted =>
    have same : fieldAdvances sure field = false := by
      cases shape : field.shape <;> simp_all [fieldAdvances, Shape.isParity]
    rw [same]
    refine moves_check.after fun count => ?_
    split
    · exact (moves_slice count).return Value.bytes
    · split
      · exact (moves_upTo element count).return Value.list
      · refine moves_remaining.after fun available => ?_
        exact ((moves_times element _).return Value.list).unsure

theorem decodeStored_moves (formed : field.WellFormed) (wide : field.isPacked = false)
    (stored : field.isStored = true) :
    Moves (fieldAdvances sure field) (decodeStored model nested s record field) := by
  have admits := formed.shape
  have elements (header : field.shape ≠ .payload) (padded : field.shape ≠ .padding)
      (sized : field.shape.isParity = false) :=
    @decodeElements_moves model _ _ s record field parts formed header padded sized
  cases shape : field.shape with
  | scalar signed =>
    simp only [decodeStored, shape]
    split
    · next seq =>
      have same : fieldAdvances sure field = (field.width / 8 == 1) := by
        simp [fieldAdvances, shape, (formed.seq seq).2, elementAdvances]
      rw [same]
      exact (moves_unsigned _).return Value.unsigned
    · exact elements (by simp [shape]) (by simp [shape]) (by simp [shape, Shape.isParity])
  | rational | struct | enum =>
    simp only [decodeStored, shape]
    exact elements (by simp [shape]) (by simp [shape]) (by simp [shape, Shape.isParity])
  | bytes =>
    simp only [shape, Shape.Admits] at admits
    simp only [decodeStored, fieldAdvances, elementAdvances, shape, admits.2.2]
    exact (moves_array _).return Value.bytes
  | string capacity =>
    simp only [shape, Shape.Admits] at admits
    have size : field.width / 8 = capacity := by omega
    simp only [decodeStored, fieldAdvances, elementAdvances, shape, admits.2.2, size]
    exact (moves_fixedText capacity).return (Value.text capacity)
  | descriptor =>
    simp only [shape, Shape.Admits] at admits
    simp only [decodeStored, fieldAdvances, elementAdvances, shape, admits.2]
    exact (moves_unsigned _).return _
  | bitfield =>
    simp only [shape, Shape.Admits] at admits
    simp [Field.isPacked, shape] at wide
    omega
  | padding | parity | payload => simp [Field.isStored, shape, Shape.isParity] at stored

omit parts

theorem decodePayload_moves : Moves false (decodePayload s record field) := by
  unfold decodePayload
  split
  · exact moves_remaining.after fun size => moves_slice size
  · exact moves_check.after fun bits => moves_slice (bits / 8)
  · exact moves_check.after fun count => moves_check.after fun size => moves_slice size

theorem decodeImplied_moves (formed : field.WellFormed) :
    Moves (fieldAdvances sure field) (decodeImplied s parsed field) := by
  have admits := formed.shape
  unfold decodeImplied
  split
  · next shape =>
    simp only [shape, Shape.Admits] at admits
    split
    · next index counted =>
      simp only [fieldAdvances, shape, counted]
      refine moves_check.after fun count => moves_check.after fun size => ?_
      exact ((moves_skip size).return fun _ => parsed).unsure
    · next known =>
      refine moves_check_bind fun bits measured => ?_
      obtain ⟨rfl, -⟩ := (wireBits?_padding s [] shape known).mp measured
      refine ((moves_skip _).return fun _ => parsed).mono fun _ => ?_
      have several : 0 < Record.repeats [] s field := by
        cases repetition : field.repetition with
        | none => simp [Record.repeats, repetition]
        | constant count =>
          have := formed.several count repetition
          simp only [Record.repeats, repetition]
          omega
        | fieldRef index => exact absurd repetition (known index)
      have wide : field.width ≤ Record.repeats [] s field * field.width :=
        Nat.le_mul_of_pos_left _ several
      simp only [Option.getD_some, decide_eq_true_eq]
      omega
  · next code shape =>
    simp only [shape, Shape.Admits] at admits
    refine ((moves_skip _).return fun _ => parsed).mono fun _ => ?_
    simp only [decide_eq_true_eq]
    omega
  · next shape =>
    simp only [fieldAdvances, shape]
    exact decodePayload_moves.return _
  · next expected shape fixed =>
    simp only [fieldAdvances, shape, (formed.fixed expected fixed).1, elementAdvances]
    have both := (moves_unsigned (field.width / 8)).bind fun code =>
      (@moves_checkFixed s field (if field.width == 8 then code <<< 8 else code) expected).return
        fun _ => parsed
    rwa [Bool.or_false] at both
  · next expected shape fixed =>
    simp only [fieldAdvances, shape, (formed.fixed expected fixed).1, elementAdvances]
    have both := (moves_unsigned (field.width / 8)).bind fun code =>
      (@moves_checkFixed s field code expected).return fun _ => parsed
    rwa [Bool.or_false] at both
  · exact moves_fault

include parts

theorem decodeSegment_moves {segment : Segment} (sound : segment.Sound)
    (formed : ∀ field ∈ segment.fields, field.WellFormed) :
    Moves (segmentAdvances sure segment) (decodeSegment model nested s parsed segment) := by
  cases segment with
  | chunk shared => exact decodeChunk_moves
  | aligned field =>
    have formed := formed field (.head _)
    rw [decodeSegment, segmentAdvances]
    split
    · next stored =>
      exact (decodeStored_moves parts formed sound stored).return (parsed.store field)
    · exact decodeImplied_moves formed

theorem decodeStruct_moves {window : Nat} (formed : ∀ field ∈ s.fields, field.WellFormed) :
    Moves (structAdvances window sure s) (decodeStruct model window nested s) := by
  refine moves_check_bind fun segments laid => ?_
  obtain ⟨whole, sound⟩ := layout_fields laid
  have each : ∀ segment ∈ segments, ∀ parsed,
      Moves (segmentAdvances sure segment) (decodeSegment model nested s parsed segment) :=
    fun segment member parsed => decodeSegment_moves parts (sound segment member)
      fun field inside => formed field (whole ▸ List.mem_flatMap.mpr ⟨segment, member, inside⟩)
  have collects (parsed : Parsed) := (@moves_check _ (s.storedFields.mapM fun field =>
    return (field.id, ← parsed.record.get field.id))).return fun fields =>
      (Value.record fields, parsed.payload)
  have both := (moves_foldlM each {}).bind collects
  rw [structAdvances, laid]
  rwa [Bool.or_false] at both

omit parts

theorem moves_meaning {window : Nat} (formed : model.WellFormed window)
    {structs front : List Struct} (place : model.structs.reverse = front ++ structs) :
    ∀ typeId decoder, meaningIn? (decodeStruct model window) structs typeId = some decoder →
      Moves (meaningOr false (structAdvances window) structs typeId) decoder := by
  induction structs generalizing front with
  | nil =>
    intro typeId decoder found
    cases found
  | cons s earlier ih =>
    have parts := @ih (front ++ [s]) (by simp [place])
    have member : s ∈ model.structs := by
      rw [← List.mem_reverse, place]
      simp
    intro typeId decoder found
    simp only [meaningIn?, meaningOr] at found ⊢
    by_cases same : (s.id == typeId) = true
    · rw [if_pos same] at found ⊢
      cases found
      exact decodeStruct_moves parts (formed.fields s member)
    · rw [if_neg same] at found ⊢
      exact parts typeId decoder found

end Codec

/-- Whether reading a structure takes a byte at least wherever there is input: it has a part of a
single byte, or bytes that are passed over. -/
def Model.advances (model : Model) (window : Nat) (id : String) : Bool :=
  meaningOr false (Codec.structAdvances window) model.structs.reverse id

end PacketSpec
