import PacketSpec.Proofs.Codec.RoundTrip
import PacketSpec.Proofs.Codec.Spending
import PacketSpec.Proofs.Codec.Static

/-! The size that is computed for a value is the number of bytes that its bits fill, and writing the
value takes exactly these bytes. -/
namespace PacketSpec

open Wire Encode Format

namespace Codec

structure Fills (step : Encode Unit) (bits : List Bool) : Prop where
  whole : bits.length % 8 = 0
  spends : Spends step (bits.length / 8)

theorem fills_put (bytes : Bytes) : Fills (write (Writer.put bytes)) (bitsOfBytes bytes) := by
  refine ⟨?_, ?_⟩ <;> rw [length_bitsOfBytes]
  · exact Nat.mul_mod_right 8 _
  · rw [Nat.mul_div_cancel_left _ (by decide)]
    exact spends_put bytes

/-- The bytes that the bits fill are also what the size says, unless they are too many. -/
structure Accounts (step : Encode Unit) (bits : List Bool) (size : Except Fault Nat) : Prop
    extends Fills step bits where
  measured : size = Size.check (bits.length / 8)

theorem sum_bytes {α : Type} {items : List α} {bits : α → List Bool}
    (whole : ∀ item ∈ items, (bits item).length % 8 = 0) :
    (items.flatMap bits).length % 8 = 0 ∧
      (items.map fun item => (bits item).length / 8).sum = (items.flatMap bits).length / 8 := by
  induction items with
  | nil => simp
  | cons item rest ih =>
    have first := whole item (.head _)
    obtain ⟨others, sum⟩ := ih fun other member => whole other (.tail _ member)
    rw [List.flatMap_cons, List.length_append, List.map_cons, List.sum_cons, sum]
    omega

theorem Fills.forM {α : Type} {items : List α} {step : α → Encode Unit} {bits : α → List Bool}
    (each : ∀ item ∈ items, Fills (step item) (bits item)) :
    Fills (items.forM step) (items.flatMap bits) := by
  obtain ⟨whole, sum⟩ := sum_bytes fun item member => (each item member).whole
  refine ⟨whole, ?_⟩
  rw [← sum]
  exact spends_forM fun item member => (each item member).spends

theorem Accounts.forM {α : Type} {items : List α} {step : α → Encode Unit}
    {bits : α → List Bool} {size : α → Except Fault Nat}
    (each : ∀ item ∈ items, Accounts (step item) (bits item) (size item)) :
    Accounts (items.forM step) (items.flatMap bits) (items.mapM size >>= Size.sum) := by
  have fills := Fills.forM fun item member => (each item member).toFills
  obtain ⟨-, sum⟩ := sum_bytes fun item member => (each item member).whole
  refine ⟨fills, ?_⟩
  rw [← sum]
  exact Size.sum_mapM fun item member => (each item member).measured

def Accountable (encoders : String → Option Encoder) (measures : String → Option Measure)
    (bits : String → Value → List Bool) (typed : String → Value → Bool) (id : String) : Prop :=
  ∃ encoder measure, encoders id = some encoder ∧ measures id = some measure ∧
    ∀ value, typed id value = true → Accounts (encoder value) (bits id value) (measure value)

variable {model : Model} {encoders : String → Option Encoder} {measures : String → Option Measure}
  {bits : String → Value → List Bool} {typed : String → Value → Bool} {s : Struct}
  {record : Record} {field : Field} {value : Value}

theorem checkRange_spends (n : Nat) : Spends (checkRange s field n) 0 := by
  unfold checkRange
  simp only
  split
  · exact spends_throw nofun
  · exact spends_pure ()

theorem encodeElement_spends (formed : field.WellFormed) (flat : field.shape.isStruct = false) :
    Spends (encodeElement encoders s field value) (field.width / 8) := by
  unfold encodeElement
  simp only
  split
  · exact spends_unsigned _ _
  · exact spends_unsigned _ _
  · next shape =>
    have admits := formed.shape
    rw [shape] at admits
    rw [show field.width = 64 from admits]
    exact spends_put _
  · next shape => simp [shape, Shape.isStruct] at flat
  · exact (checkRange_spends _).free_bind fun _ => spends_unsigned _ _
  · exact spends_illTyped

def Nests (encoders : String → Option Encoder) (measures : String → Option Measure)
    (bits : String → Value → List Bool) (typed : String → Value → Bool) (field : Field)
    (value : Value) : Prop :=
  ∀ typeId, field.shape = .struct typeId → typed typeId value = true ∧
    Accountable encoders measures bits typed typeId

theorem encodeElement_fills (formed : field.WellFormed) (wide : field.isPacked = false)
    (header : field.shape ≠ .payload) (sized : field.shape.isParity = false)
    (own : elementTyped model field value = true)
    (nested : Nests encoders measures bits typed field value) :
    Fills (encodeElement encoders s field value) (elementBits bits field value) := by
  by_cases flat : field.shape.isStruct = false
  · have length : (elementBits bits field value).length = field.width :=
      elementBits_length formed flat own
    refine ⟨?_, ?_⟩ <;> rw [length]
    · exact formed.width_whole wide flat sized header
    · exact encodeElement_spends formed flat
  · obtain ⟨typeId, shape⟩ : ∃ typeId, field.shape = .struct typeId := by
      cases shape : field.shape <;> simp_all [Shape.isStruct]
    obtain ⟨right, encoder, measure, known, -, accounts⟩ := nested typeId shape
    have accounts := accounts value right
    simpa [encodeElement, elementBits, shape, known] using accounts.toFills

/-- Several plain bytes are one element, else every element has the type of the field. -/
theorem fieldTyped_cases (right : fieldTyped model field value = true) :
    (∃ buffer, value = .bytes buffer ∧ field.isByteBuffer = true ∧ field.repetition ≠ .none) ∨
      (∀ element ∈ field.elements value, elementTyped model field element = true) ∧
        (field.repetition = .none ∨ ∃ elements, value = .list elements) := by
  have array (several : field.repetition ≠ .none) (right : arrayTyped model field value = true) :
      (∃ buffer, value = .bytes buffer ∧ field.isByteBuffer = true ∧ field.repetition ≠ .none) ∨
        (∀ element ∈ field.elements value, elementTyped model field element = true) ∧
          (field.repetition = .none ∨ ∃ elements, value = .list elements) := by
    rcases arrayTyped_cases right with ⟨buffer, rfl, buffered⟩ | ⟨elements, rfl, -, each⟩
    · exact .inl ⟨buffer, rfl, buffered, several⟩
    · rw [Field.elements_list several]
      exact .inr ⟨each, .inr ⟨elements, rfl⟩⟩
  unfold fieldTyped at right
  split at right
  · next single =>
    rw [Field.elements_single single]
    exact .inr ⟨by simpa using right, .inl single⟩
  · next several =>
    rw [Bool.and_eq_true] at right
    exact array (by simp [several]) right.1
  · next several => exact array (by simp [several]) right

section Stored

variable (formed : field.WellFormed) (wide : field.isPacked = false)
  (header : field.shape ≠ .payload) (sized : field.shape.isParity = false)
  (right : fieldTyped model field value = true)
  (nested : ∀ element ∈ field.elements value, Nests encoders measures bits typed field element)

include formed wide header sized right nested

theorem encodeElements_fills : Fills (encodeElements encoders s field value)
    ((field.elements value).flatMap (elementBits bits field)) := by
  rcases fieldTyped_cases right with ⟨buffer, rfl, buffered, several⟩ | ⟨each, form⟩
  · have plain : encodeElements encoders s field (.bytes buffer) = write (Writer.put buffer) := by
      unfold encodeElements
      split <;> simp_all
    rw [plain, buffer_bits buffered]
    exact fills_put buffer
  · by_cases single : field.repetition = .none
    · rw [Field.elements_single single] at each nested ⊢
      have one : encodeElements encoders s field value = encodeElement encoders s field value := by
        simp [encodeElements, single]
      rw [List.flatMap_singleton, one]
      exact encodeElement_fills formed wide header sized (each value (.head _))
        (nested value (.head _))
    · obtain ⟨elements, rfl⟩ := form.resolve_left single
      rw [Field.elements_list single] at each nested ⊢
      have several : encodeElements encoders s field (.list elements) =
          elements.forM (encodeElement encoders s field) := by
        unfold encodeElements
        split <;> simp_all
      rw [several]
      exact Fills.forM fun element member => encodeElement_fills formed wide header sized
        (each element member) (nested element member)

/-- A stored field outside chunks takes the bytes of its elements. -/
theorem encodeStored_fills : Fills (encodeStored encoders s field value)
    ((field.elements value).flatMap (elementBits bits field)) := by
  have elements := encodeElements_fills (s := s) formed wide header sized right nested
  refine ⟨elements.whole, ?_⟩
  unfold encodeStored
  simp only
  split
  · next shape =>
    split
    · next seq =>
      simpa [field.elements_lone, elementBits, shape] using spends_unsigned (field.width / 8) _
    · exact spends_illTyped
    · exact elements.spends
  · exact elements.spends
  · exact elements.spends
  · exact elements.spends
  · next bytes shape =>
    simpa [field.elements_lone, elementBits, shape] using (fills_put bytes).spends
  · next text shape =>
    simpa [field.elements_lone, elementBits, shape, Writer.fixedText] using
      (fills_put text.raw).spends
  · next code shape =>
    simpa [field.elements_lone, elementBits, shape] using spends_unsigned (field.width / 8) _
  · exact spends_illTyped

end Stored

theorem checkCount_spends (value : Value) : Spends (checkCount s record field value) 0 := by
  unfold checkCount
  split
  · refine spends_check_bind fun count _ => spends_check_bind fun expected _ => ?_
    split
    · exact spends_throw nofun
    · exact spends_pure ()
  · exact spends_pure ()

structure TypedField (model : Model) (encoders : String → Option Encoder)
    (measures : String → Option Measure) (bits : String → Value → List Bool)
    (typed : String → Value → Bool) (s : Struct) (record : Record) (field : Field) : Prop where
  formed : field.WellFormed
  measured : field.Measured
  small : field.staticBits < Size.bound
  stored : field.isStored = true → ∃ value, record.lookup field.id = some value ∧
    fieldTyped model field value = true ∧ ∀ typeId, field.shape = .struct typeId →
      ∀ element ∈ field.elements value, typed typeId element = true
  nested : ∀ typeId, field.shape = .struct typeId →
    Accountable encoders measures bits typed typeId
  counted : ∀ index, field.repetition = .fieldRef index →
    ∃ count, record.countAt s index = .ok count

namespace TypedField

variable (typedField : TypedField model encoders measures bits typed s record field)

include typedField

theorem right (stored : field.isStored = true) :
    ∃ value, record.lookup field.id = some value ∧ fieldTyped model field value = true := by
  obtain ⟨value, found, right, -⟩ := typedField.stored stored
  exact ⟨value, found, right⟩

theorem length_static (flat : field.shape.isStruct = false) (header : field.shape ≠ .payload)
    (known : ∀ index, field.repetition ≠ .fieldRef index) :
    (fieldBits bits s record field).length = field.staticBits := by
  by_cases sized : field.shape.isParity = false
  · rw [fieldBits_length bits s typedField.formed typedField.right flat sized header known]
    cases shape : field.shape <;> cases repetition : field.repetition <;>
      simp_all [Field.staticBits, Record.repeats, Shape.isStruct, Shape.isParity, Nat.mul_comm]
  · obtain ⟨code, shape⟩ : ∃ code, field.shape = .parity code := by
      cases shape : field.shape <;> simp_all [Shape.isParity]
    cases repetition : field.repetition <;>
      simp_all [Field.staticBits, fieldBits]

/-- The number of elements of a field that is counted by another: what it holds, or for padding what
the other says. -/
theorem length_counted {index : Nat} (flat : field.shape.isStruct = false)
    (header : field.shape ≠ .payload) (repetition : field.repetition = .fieldRef index) :
    ∃ count, (if field.isStored then record.get field.id >>= elementCount field
        else record.countAt s index) = .ok count ∧
      (fieldBits bits s record field).length = count * field.width := by
  by_cases stored : field.isStored = true
  · obtain ⟨value, found, right⟩ := typedField.right stored
    have several : field.repetition ≠ .none := by simp [repetition]
    simp only [fieldTyped, repetition] at right
    refine ⟨value.count, ?_, ?_⟩
    · rw [if_pos stored, Record.get_eq_ok.mpr found]
      rcases arrayTyped_cases right with ⟨buffer, rfl, -⟩ | ⟨elements, rfl, -, -⟩ <;> rfl
    · rw [fieldBits_stored stored, Record.elements_of_lookup found]
      exact array_length typedField.formed flat several right
  · obtain ⟨count, counts⟩ := typedField.counted index repetition
    refine ⟨count, by rw [if_neg stored, counts], ?_⟩
    have padding : field.shape = .padding := by
      have admits := typedField.formed.shape
      have fixed := typedField.formed.fixed
      cases shape : field.shape <;> cases value : field.fixed <;>
        simp_all [Field.isStored, Shape.isParity, Shape.Admits, Field.Fixes]
    rw [fieldBits, padding]
    simp [repeats_fieldRef repetition counts]

/-- The size of a field of known size, or counted by another field, is that of its bits. -/
theorem alignedSize_flat (wide : field.isPacked = false) (flat : field.shape.isStruct = false)
    (header : field.shape ≠ .payload) :
    alignedSize measures s record field =
      Size.check ((fieldBits bits s record field).length / 8) := by
  unfold alignedSize
  split
  · next shape => exact absurd shape header
  · next shape => simp [shape, Shape.isStruct] at flat
  · by_cases known : ∀ index, field.repetition ≠ .fieldRef index
    · rw [Field.wireBits?_static typedField.measured flat header known,
        typedField.length_static flat header known]
      have small := typedField.small
      exact (Size.check_of_lt (by omega)).symm
    · obtain ⟨index, repetition⟩ : ∃ index, field.repetition = .fieldRef index := by
        simpa using known
      have sized : field.shape.isParity = false := by
        have admits := typedField.formed.shape
        cases shape : field.shape <;> simp_all [Shape.Admits, Shape.isParity]
      have whole := typedField.formed.width_whole wide flat sized header
      obtain ⟨count, counts, length⟩ := typedField.length_counted flat header repetition
      rw [Field.wireBits?_counted repetition, repetition, length,
        Nat.mul_div_assoc count (Nat.dvd_of_mod_eq_zero whole)]
      by_cases stored : field.isStored = true
      · rw [if_pos stored] at counts
        obtain ⟨value, found, counts⟩ := bind_eq_ok.mp counts
        simp [stored, found, counts, Size.mul, bind, Except.bind]
      · rw [if_neg stored] at counts
        simp [stored, counts, Size.mul, bind, Except.bind]

theorem encodeImplied_fills (wide : field.isPacked = false) (implied : field.isStored = false) :
    Fills (encodeImplied s record field) (fieldBits bits s record field) := by
  have formed := typedField.formed
  rcases typedField.formed.implied_cases wide implied with shape | shape | ⟨code, shape⟩ |
    ⟨n, fixed, single, number⟩
  · simp only [encodeImplied, fieldBits, shape]
    exact ⟨rfl, spends_pure ()⟩
  · have header : field.shape ≠ .payload := by simp [shape]
    have flat : field.shape.isStruct = false := by simp [shape, Shape.isStruct]
    have whole := formed.width_whole wide flat (by simp [shape, Shape.isParity]) header
    simp only [encodeImplied, shape]
    split
    · next index repetition =>
      obtain ⟨count, counts, length⟩ := typedField.length_counted flat header repetition
      rw [if_neg (by simp [implied])] at counts
      refine ⟨by rw [length, Nat.mul_mod, whole, Nat.mul_zero, Nat.zero_mod], ?_⟩
      rw [length, Nat.mul_div_assoc count (Nat.dvd_of_mod_eq_zero whole)]
      refine spends_check_bind fun other same => spends_check_bind fun size sized => ?_
      obtain rfl := Except.ok.inj (counts.symm.trans same)
      obtain ⟨rfl, -⟩ := Size.mul_eq_ok.mp sized
      exact spends_zeros _
    · next known =>
      have length := typedField.length_static flat header known
      refine ⟨by rw [length]; exact formed.staticBits_whole wide, ?_⟩
      rw [length, Field.wireBits?_static typedField.measured flat header known]
      exact spends_zeros _
  · have admits := formed.shape
    rw [shape] at admits
    simp only [encodeImplied, fieldBits, shape]
    refine ⟨?_, ?_⟩ <;> rw [List.length_replicate]
    · exact admits.2.1
    · exact spends_parity code
  · have length : (fieldBits bits s record field).length = field.width := by
      rcases number with scalar | shape
      · rw [fieldBits_fixed fixed] <;>
          cases shape : field.shape <;> simp_all [Shape.isScalar, Shape.isParity, fixedBits]
      · rw [fieldBits_fixed fixed] <;> simp [shape, Shape.isParity, fixedBits]
    have whole : 8 * (field.width / 8) = field.width := formed.whole wide (by tauto)
    refine ⟨by omega, ?_⟩
    rw [length]
    rcases number with scalar | shape
    · obtain ⟨signed, shape⟩ : ∃ signed, field.shape = .scalar signed := by
        cases shape : field.shape <;> simp_all [Shape.isScalar]
      simp only [encodeImplied, shape, fixed]
      exact spends_unsigned _ _
    · simp only [encodeImplied, shape, fixed]
      exact spends_unsigned _ _

theorem encodeAligned_fills (wide : field.isPacked = false) :
    Fills (encodeAligned encoders s record field) (fieldBits bits s record field) := by
  unfold encodeAligned
  by_cases stored : field.isStored = true
  · obtain ⟨value, found, right, nested⟩ := typedField.stored stored
    have header : field.shape ≠ .payload := by
      intro shape
      simp [Field.isStored, shape] at stored
    have sized : field.shape.isParity = false := by
      simp_all [Field.isStored]
    have fills := encodeStored_fills (s := s) typedField.formed wide header sized right
      fun element member typeId shape =>
        ⟨nested typeId shape element member, typedField.nested typeId shape⟩
    rw [if_pos stored, fieldBits_stored stored, Record.elements_of_lookup found,
      Record.get_eq_ok.mpr found]
    exact ⟨fills.whole, spends_check_bind fun other same =>
      (checkCount_spends other).free_bind fun _ => by cases same; exact fills.spends⟩
  · rw [if_neg stored]
    exact typedField.encodeImplied_fills wide (by simpa using stored)

/-- The sizes of nested structures add up to that of the field. -/
theorem alignedSize_struct {typeId : String} (shape : field.shape = .struct typeId) :
    alignedSize measures s record field =
      Size.check ((fieldBits bits s record field).length / 8) := by
  have stored : field.isStored = true := by
    have fixes := typedField.formed.fixed
    cases value : field.fixed <;> simp_all [Field.isStored, Shape.isParity, Field.Fixes]
  obtain ⟨value, found, right, nested⟩ := typedField.stored stored
  obtain ⟨encoder, measure, -, known, accounts⟩ := typedField.nested typeId shape
  have nested := nested typeId shape
  have elements : elementBits bits field = bits typeId := by
    funext element
    simp [elementBits, shape]
  rw [fieldBits_stored stored, Record.elements_of_lookup found, elements]
  have whole : alignedSize measures s record field = nestedSize measures field typeId value := by
    simp [alignedSize, shape, Record.get_eq_ok.mpr found, bind, Except.bind]
  rw [whole, nestedSize, known]
  rcases fieldTyped_cases right with ⟨buffer, -, buffered, -⟩ | ⟨-, form⟩
  · simp [Field.isByteBuffer, shape] at buffered
  · by_cases single : field.repetition = .none
    · rw [Field.elements_single single] at nested ⊢
      simp only [single, List.flatMap_singleton]
      exact (accounts value (nested value (.head _))).measured
    · obtain ⟨elements, rfl⟩ := form.resolve_left single
      rw [Field.elements_list single] at nested ⊢
      have sum := (Accounts.forM fun element member =>
        accounts element (nested element member)).measured
      rw [← sum]
      cases repetition : field.repetition <;> first | exact absurd repetition single | rfl

theorem encodeAligned_accounts (wide : field.isPacked = false) :
    Accounts (encodeAligned encoders s record field) (fieldBits bits s record field)
      (alignedSize measures s record field) := by
  refine ⟨typedField.encodeAligned_fills wide, ?_⟩
  by_cases header : field.shape = .payload
  · simp only [alignedSize, fieldBits, header]
    rfl
  · by_cases flat : field.shape.isStruct = false
    · exact typedField.alignedSize_flat wide flat header
    · obtain ⟨typeId, shape⟩ : ∃ typeId, field.shape = .struct typeId := by
        cases shape : field.shape <;> simp_all [Shape.isStruct]
      exact typedField.alignedSize_struct shape

theorem length_packed (packed : field.isPacked = true) :
    (fieldBits bits s record field).length = field.width := by
  obtain ⟨-, single, shape⟩ := typedField.formed.packed packed
  rw [← typedField.formed.staticBits_packed packed]
  rcases shape with shape | ⟨typeId, shape⟩ <;>
    exact typedField.length_static (by simp [shape, Shape.isStruct]) (by simp [shape])
      (by simp [single])

end TypedField

theorem packedValue_spends (field : Field) : Spends (packedValue s record field) 0 := by
  unfold packedValue
  split
  · exact spends_pure _
  · refine spends_check_bind fun value _ => ?_
    split
    · split
      · exact spends_pure _
      · exact (checkRange_spends _).free_bind fun _ => spends_pure _
    · exact (checkRange_spends _).free_bind fun _ => spends_pure _
    · exact spends_illTyped

theorem length_packedBits {fields : List Field}
    (typedFields : ∀ field ∈ fields, TypedField model encoders measures bits typed s record field)
    (packed : ∀ field ∈ fields, field.isPacked = true) :
    (fields.flatMap (fieldBits bits s record)).length = totalWidth fields := by
  induction fields with
  | nil => rfl
  | cons field rest ih =>
    rw [List.flatMap_cons, List.length_append, totalWidth,
      (typedFields field (.head _)).length_packed (packed field (.head _)),
      ih (fun other member => typedFields other (.tail _ member))
        fun other member => packed other (.tail _ member)]

theorem encodeChunk_accounts {fields : List Field}
    (typedFields : ∀ field ∈ fields, TypedField model encoders measures bits typed s record field)
    (packed : ∀ field ∈ fields, field.isPacked = true) (whole : totalWidth fields % 8 = 0)
    (small : staticBitsOf fields < Size.bound) :
    Accounts (encodeChunk s record
        ⟨totalWidth fields, BitWindow.place (totalWidth fields) (widthsOf fields)⟩)
      (fields.flatMap (fieldBits bits s record)) (.ok (totalWidth fields / 8)) := by
  have length := length_packedBits typedFields packed
  rw [staticBitsOf_packed (fun field member => (typedFields field member).formed) packed] at small
  refine ⟨⟨by rw [length, whole], ?_⟩, ?_⟩ <;> rw [length]
  · refine (spends_mapM fun place _ => ?_).free_bind fun terms => spends_unsigned _ _
    exact (packedValue_spends _).free_bind fun _ => spends_pure _
  · exact (Size.check_of_lt (by omega)).symm

theorem encodeSegment_accounts {segment : Segment} (sound : segment.Sound)
    (typedFields : ∀ field ∈ segment.fields,
      TypedField model encoders measures bits typed s record field)
    (small : staticBitsOf segment.fields < Size.bound) :
    Accounts (encodeSegment encoders s record segment)
      (segment.fields.flatMap (fieldBits bits s record))
      (segmentSize measures s record segment) := by
  cases segment with
  | chunk shared =>
    obtain ⟨fields, -, rfl, whole, packed⟩ := sound
    rw [Segment.fields, BitWindow.place_symbols] at typedFields small ⊢
    exact encodeChunk_accounts typedFields packed whole small
  | aligned field =>
    rw [Segment.fields, List.flatMap_singleton]
    exact (typedFields field (.head _)).encodeAligned_accounts sound

section Laid

variable {window : Nat}
  (typedFields : ∀ field ∈ s.fields, TypedField model encoders measures bits typed s record field)
  (small : staticBitsOf s.fields < Size.bound)

include typedFields small

/-- The first segments of a structure account for the fields in them. -/
theorem encodeSegments_accounts {front back : List Segment}
    (laid : layout window s = .ok (front ++ back)) :
    Accounts (front.forM (encodeSegment encoders s record))
      ((front.flatMap Segment.fields).flatMap (fieldBits bits s record))
      (front.mapM (segmentSize measures s record) >>= Size.sum) := by
  obtain ⟨whole, sound⟩ := layout_fields laid
  rw [List.flatMap_assoc]
  refine Accounts.forM fun segment member => ?_
  have within : segment ∈ front ++ back := List.mem_append_left _ member
  refine encodeSegment_accounts (sound segment within) (fun field inside => typedFields field ?_) ?_
  · exact whole ▸ List.mem_flatMap.mpr ⟨segment, within, inside⟩
  · rw [← whole] at small
    exact Nat.lt_of_le_of_lt (staticBitsOf_segment_le within) small

theorem encodeStruct_accounts {segments : List Segment} (laid : layout window s = .ok segments) :
    Accounts (encodeStruct window encoders s (.record record)) (structBits bits s (.record record))
      (structSize window measures s (.record record)) := by
  obtain ⟨whole, -⟩ := layout_fields laid
  have accounts := encodeSegments_accounts typedFields small
    (show layout window s = .ok (segments ++ []) by rw [laid, List.append_nil])
  rw [whole] at accounts
  rw [structBits, encodeStruct, structSize, laid]
  exact accounts

end Laid

/-- A field that counts elements holds a number, if it is not fixed to one. -/
theorem countAt_typed {count : Field} {index : Nat} (place : s.fields[index]? = some count)
    (counts : count.IsCount)
    (stored : count.isStored = true → ∃ value, record.lookup count.id = some value ∧
      fieldTyped model count value = true) :
    ∃ n, record.countAt s index = .ok n := by
  cases fixed : count.fixed with
  | some n => exact ⟨n, by simp [Record.countAt, place, fixed]⟩
  | none =>
    obtain ⟨value, found, right⟩ := stored (counts.stored fixed)
    obtain ⟨shape, single⟩ := counts
    simp only [fieldTyped, single] at right
    obtain ⟨n, rfl⟩ : ∃ n, value = .unsigned n := by
      rcases shape with shape | shape <;> cases value <;> cases seq : count.seq <;>
        simp_all [elementTyped]
    exact ⟨n, by simp [Record.countAt, place, fixed, Record.get, found, bind, Except.bind]⟩

/-- The fields of a record that has the type of a structure. -/
theorem typedFields_of_typed {earlier : List Struct}
    (formed : WellFormedFields model earlier s.fields) (made : s.Made)
    (sizeBits : s.sizeBits = staticBitsOf s.fields)
    (parts : ∀ nested ∈ earlier, Accountable encoders measures bits typed nested.id)
    (right : everyRecord (recordTyped model) typed s (.record record) = true) :
    ∀ field ∈ s.fields, TypedField model encoders measures bits typed s record field := by
  simp only [everyRecord, recordTyped, Bool.and_eq_true, List.all_eq_true] at right
  obtain ⟨⟨-, own⟩, nested⟩ := right
  have stored : ∀ field ∈ s.fields, field.isStored = true →
      ∃ value, record.lookup field.id = some value ∧ fieldTyped model field value = true := by
    intro field member stored
    have own := own field member
    simp only [stored, Bool.not_true, Bool.false_or] at own
    exact (Option.any_eq_true _ _).mp own
  intro field member
  refine ⟨formed.each field member, made.fields field member, ?_, ?_, ?_, ?_⟩
  · have small := made.sizeBits
    have within := staticBits_le_of_mem member
    omega
  · intro held
    obtain ⟨value, found, right⟩ := stored field member held
    refine ⟨value, found, right, fun typeId shape => ?_⟩
    have nested := nested field member
    rw [shape] at nested
    rwa [Record.elements_of_lookup found, List.all_eq_true] at nested
  · intro typeId shape
    obtain ⟨-, nested, before, rfl, -⟩ := formed.structs field member typeId shape
    exact parts nested before
  · intro index repetition
    obtain ⟨front, back, place⟩ := List.append_of_mem member
    obtain ⟨count, inside, found, counts⟩ := formed.count_before place repetition
    exact countAt_typed found counts (stored count (by simp [place, inside]))

/-- The encoders and the sizes of all structures account for their values. -/
theorem accountable_meaning {window : Nat} (formed : model.WellFormed window)
    (made : ∀ s ∈ model.structs, s.Made) {structs front : List Struct}
    (place : model.structs.reverse = front ++ structs) :
    ∀ nested ∈ structs, Accountable (meaningIn? (encodeStruct window) structs)
      (meaningIn? (structSize window) structs) (meaningOr (fun _ => []) structBits structs)
      (meaningOr (fun _ => false) (everyRecord (recordTyped model)) structs) nested.id := by
  induction structs generalizing front with
  | nil => nofun
  | cons s earlier ih =>
    have parts := @ih (front ++ [s]) (by simp [place])
    have split : model.structs = earlier.reverse ++ s :: front.reverse := by
      rw [← List.reverse_reverse model.structs, place]
      simp
    have sound := formed.structs earlier.reverse s front.reverse split
    have ready := made s (by simp [split])
    intro nested member
    simp only [Accountable, meaningIn?, meaningOr]
    by_cases same : (s.id == nested.id) = true
    · simp only [if_pos same]
      refine ⟨_, _, rfl, rfl, fun value right => ?_⟩
      cases value with
      | record record =>
        obtain ⟨segments, laid⟩ := sound.laid
        have small := ready.sizeBits
        rw [sound.sizeBits] at small
        exact encodeStruct_accounts (typedFields_of_typed sound.fields ready sound.sizeBits
          (fun other before => parts other (List.mem_reverse.mp before)) right) small laid
      | _ => cases right
    · simp only [if_neg same]
      rcases List.mem_cons.mp member with rfl | before
      · exact absurd (beq_self_eq_true _) same
      · exact parts nested before

end Codec

namespace Model

variable {model : Model} {window : Nat} {earlier later : List Struct} {s : Struct}

/-- The fields of a value of a structure, with the encoders and sizes of those before it. -/
theorem WellFormed.typedFields {record : Record} (formed : model.WellFormed window)
    (made : ∀ s ∈ model.structs, s.Made) (place : model.structs = earlier ++ s :: later)
    (right : model.hasType s.id (.record record) = true) :
    ∀ field ∈ s.fields, Codec.TypedField model
      (meaningIn? (Codec.encodeStruct window) earlier.reverse)
      (meaningIn? (Codec.structSize window) earlier.reverse)
      (meaningOr (fun _ => []) structBits earlier.reverse)
      (meaningOr (fun _ => false) (Format.everyRecord (recordTyped model)) earlier.reverse)
      s record field := by
  have sound := formed.structs earlier s later place
  have split : model.structs.reverse = (later.reverse ++ [s]) ++ earlier.reverse := by simp [place]
  have parts := Codec.accountable_meaning formed made split
  rw [hasType, Model.everyRecord, formed.meaningOr_self place] at right
  exact Codec.typedFields_of_typed sound.fields (made s (by simp [place])) sound.sizeBits
    (fun nested before => parts nested (List.mem_reverse.mpr before)) right

theorem WellFormed.encode_eq (formed : model.WellFormed window)
    (place : model.structs = earlier ++ s :: later) (value : Value) :
    model.encode window s.id value = Codec.encodeStruct window
      (meaningIn? (Codec.encodeStruct window) earlier.reverse) s value := by
  rw [Model.encode, formed.meaning_self place]
  rfl

theorem WellFormed.flatMap_wireBits {fields : List Field} (formed : model.WellFormed window)
    (place : model.structs = earlier ++ s :: later) (inside : ∀ field ∈ fields, field ∈ s.fields)
    (record : Record) :
    fields.flatMap (fieldBits model.wireBits s record) =
      fields.flatMap
        (fieldBits (meaningOr (fun _ => []) structBits earlier.reverse) s record) := by
  rw [List.flatMap_def, List.flatMap_def, List.map_congr_left fun field member =>
    formed.fieldBits_wireBits place (inside field member) record]

end Model

/-- Writing a value takes the bytes that its bits fill, and so says its size. -/
theorem Model.encode_accounts {model : Model} {window : Nat} {s : Struct} {value : Value}
    (formed : model.WellFormed window) (made : ∀ s ∈ model.structs, s.Made)
    (member : s ∈ model.structs) (right : model.hasType s.id value = true) :
    Codec.Accounts (model.encode window s.id value) (model.wireBits s.id value)
      (model.encodedSize window s.id value) := by
  obtain ⟨encoder, measure, known, sized, accounts⟩ :=
    Codec.accountable_meaning formed made (show model.structs.reverse = [] ++ _ from rfl) s
      (List.mem_reverse.mpr member)
  have accounts := accounts value right
  rw [Model.encode, Model.encodedSize, Model.meaning_eq_ok.mpr known, Model.meaning_eq_ok.mpr sized]
  exact accounts

end PacketSpec
