import PacketSpec.Proofs.Accepted
import PacketSpec.Proofs.Codec.Format
import PacketSpec.Proofs.Codec.Layout
import PacketSpec.Proofs.Codec.Writing

/-! A value that is written has the bits of the wire format, and has passed every check. -/
namespace PacketSpec

open Wire Encode Format

/-- The widths of numbers outside chunks are whole bytes. -/
theorem Field.WellFormed.whole {field : Field} (formed : field.WellFormed)
    (wide : field.isPacked = false) (number : field.shape.isScalar = true ∨
      field.shape.isEnum = true ∨ field.shape = .descriptor ∨ field.shape = .padding) :
    8 * (field.width / 8) = field.width := by
  have admits := formed.shape
  unfold Shape.Admits at admits
  unfold Field.isPacked at wide
  split at admits <;> grind [Shape.isScalar, Shape.isEnum]

theorem Field.WellFormed.packed {field : Field} (formed : field.WellFormed)
    (packed : field.isPacked = true) : field.width ≤ 7 ∧ field.repetition = .none ∧
      (field.shape = .bitfield ∨ ∃ typeId, field.shape = .enum typeId) := by
  have admits := formed.shape
  unfold Shape.Admits at admits
  unfold Field.isPacked at packed
  split at admits <;> grind [Shape.isEnum]

theorem Field.WellFormed.stored_of_packed {field : Field} (formed : field.WellFormed)
    (packed : field.isPacked = true) (free : field.fixed = none) : field.isStored = true := by
  rcases (formed.packed packed).2.2 with shape | ⟨typeId, shape⟩ <;>
    simp [Field.isStored, shape, free, Shape.isParity]

theorem Field.IsCount.stored {field : Field} (counts : field.IsCount)
    (free : field.fixed = none) : field.isStored = true := by
  rcases counts.1 with shape | shape <;> simp [Field.isStored, shape, free, Shape.isParity]

/-- The count of an array is one of the fields before it. -/
theorem WellFormedFields.count_before {model : Model} {earlier : List Struct}
    {fields before after : List Field} {field : Field} {index : Nat}
    (formed : WellFormedFields model earlier fields) (place : fields = before ++ field :: after)
    (repetition : field.repetition = .fieldRef index) :
    ∃ count ∈ before, fields[index]? = some count ∧ count.IsCount := by
  have position : fields[before.length]? = some field := by simp [place]
  obtain ⟨early, count, found, counts⟩ :=
    formed.counts before.length index field position repetition
  refine ⟨count, ?_, found, counts⟩
  rw [place, List.getElem?_append_left early] at found
  exact List.mem_of_getElem? found

namespace Codec

def EncodesNested (nested : String → Option Encoder) (bits : String → Value → List Bool)
    (fits : String → Value → Bool) : Prop :=
  ∀ id encoder, nested id = some encoder → ∀ value,
    Emits (encoder value) fun _ out => out = bits id value ∧ fits id value = true

variable {nested : String → Option Encoder} {bits : String → Value → List Bool}
  {fits : String → Value → Bool} {s : Struct} {record : Record} {field : Field} {value : Value}

theorem emits_unsigned {width n : Nat} {post : Unit → List Bool → Prop}
    (whole : 8 * (width / 8) = width) (holds : post () (bitsOfNat width n)) :
    Emits (write (Writer.unsigned (width / 8) n)) post :=
  emits_put (by rwa [bitsOfBytes_bigEndian, whole])

theorem checkRange_emits {n : Nat} (narrow : field.width ≤ 64) :
    Emits (checkRange s field n) fun _ out => out = [] ∧ n < 1 <<< field.width := by
  unfold checkRange
  simp only
  split
  · exact emits_throw
  · next inside =>
    exact emits_pure ⟨rfl, (le_maxOfWidth_iff narrow).mp (Nat.not_lt.mp inside)⟩

def Checked (fits : String → Value → Bool) (field : Field) (value : Value) : Prop :=
  elementFits field value = true ∧ ∀ typeId, field.shape = .struct typeId → fits typeId value = true

theorem encodeElement_emits (parts : EncodesNested nested bits fits) (formed : field.WellFormed)
    (wide : field.isPacked = false) :
    Emits (encodeElement nested s field value) fun _ out =>
      out = elementBits bits field value ∧ Checked fits field value := by
  unfold encodeElement
  simp only
  split
  · next n shape =>
    refine emits_unsigned (formed.whole wide (by simp [shape, Shape.isScalar])) ?_
    simp [elementBits, Checked, elementFits, shape]
  · next n shape =>
    have whole := formed.whole wide (by simp [shape, Shape.isScalar])
    refine emits_put ?_
    rw [bitsOfBytes_bigEndian, whole]
    simp [elementBits, Checked, elementFits, shape]
  · next value shape =>
    refine emits_put ?_
    rw [bitsOfBytes_append, bitsOfBytes_bigEndian, bitsOfBytes_bigEndian]
    simp [elementBits, Checked, elementFits, shape]
  · next typeId shape =>
    split
    · next encoder found =>
      refine (parts typeId encoder found _).mono fun _ out written => ?_
      simpa [elementBits, Checked, elementFits, shape] using written
    · exact emits_fault
  · next value shape =>
    have admits := formed.shape
    rw [shape] at admits
    have narrow : field.width ≤ 64 := by grind [Shape.Admits]
    refine emits_bind (checkRange_emits narrow) fun _ _ checked => ?_
    obtain ⟨rfl, inside⟩ := checked
    refine emits_unsigned (formed.whole wide (by simp [shape, Shape.isEnum])) ?_
    simp [elementBits, Checked, elementFits, shape, inside]
  · exact emits_illTyped

theorem encodeElements_emits (parts : EncodesNested nested bits fits) (formed : field.WellFormed)
    (wide : field.isPacked = false) :
    Emits (encodeElements nested s field value) fun _ out =>
      out = (field.elements value).flatMap (elementBits bits field) ∧
      ∀ element ∈ field.elements value, Checked fits field element := by
  unfold encodeElements
  split
  · next single =>
    rw [Field.elements_single single]
    refine (encodeElement_emits parts formed wide).mono fun _ out written => ?_
    simpa using written
  · split
    · next buffered =>
      have shape : field.shape = .scalar false := by
        simp [Field.isByteBuffer] at buffered
        exact buffered.1.1
      refine emits_put ?_
      simp [field.elements_lone, elementBits, Checked, elementFits, shape]
    · exact emits_illTyped
  · next elements several =>
    rw [Field.elements_list several]
    exact emits_forM fun _ _ => encodeElement_emits parts formed wide
  · exact emits_illTyped

/-- The encoder of a stored field outside chunks writes its elements in order. -/
theorem encodeStored_emits (parts : EncodesNested nested bits fits) (formed : field.WellFormed)
    (wide : field.isPacked = false) :
    Emits (encodeStored nested s field value) fun _ out =>
      out = (field.elements value).flatMap (elementBits bits field) ∧
      ∀ element ∈ field.elements value, Checked fits field element := by
  unfold encodeStored
  simp only
  split
  · next shape =>
    split
    · refine emits_unsigned (formed.whole wide (by simp [shape, Shape.isScalar])) ?_
      simp [field.elements_lone, elementBits, Checked, elementFits, shape]
    · exact emits_illTyped
    · exact encodeElements_emits parts formed wide
  · exact encodeElements_emits parts formed wide
  · exact encodeElements_emits parts formed wide
  · exact encodeElements_emits parts formed wide
  · next shape =>
    refine emits_put ?_
    simp [field.elements_lone, elementBits, Checked, elementFits, shape]
  · next shape =>
    refine emits_put ?_
    simp [field.elements_lone, elementBits, Checked, elementFits, shape]
  · next shape =>
    refine emits_unsigned (formed.whole wide (by simp [shape])) ?_
    simp [field.elements_lone, elementBits, descriptorNumber, Checked, elementFits, shape]
  · exact emits_illTyped

theorem elementCount_eq_ok {count : Nat} (counted : elementCount field value = .ok count) :
    count = value.count := by
  unfold elementCount at counted
  split at counted <;> cases counted <;> rfl

theorem repeats_fieldRef {index count : Nat} (repetition : field.repetition = .fieldRef index)
    (counted : record.countAt s index = .ok count) : record.repeats s field = count := by
  simp [Record.repeats, repetition, counted, Except.toOption]

theorem checkCount_emits :
    Emits (checkCount s record field value) fun _ out => out = [] ∧
      ∀ index, field.repetition = .fieldRef index → value.count = record.repeats s field := by
  unfold checkCount
  split
  · next index repetition =>
    refine emits_bind emits_check fun count _ first => ?_
    refine emits_bind emits_check fun expected _ second => ?_
    obtain ⟨rfl, counted⟩ := first
    obtain ⟨rfl, declared⟩ := second
    split
    · exact emits_throw
    · next same =>
      refine emits_pure ⟨rfl, fun _ _ => ?_⟩
      rw [repeats_fieldRef repetition declared, ← elementCount_eq_ok counted]
      simpa using same
  · next other => exact emits_pure ⟨rfl, fun index repetition => absurd repetition (other index)⟩

variable (s record) in
/-- Padding whose count is not held by a field has a size that is known in advance, unless it is too
large. -/
theorem wireBits?_padding {size : Option Nat} (shape : field.shape = .padding)
    (known : ∀ index, field.repetition ≠ .fieldRef index) :
    field.wireBits? = .ok size ↔
      size = some (record.repeats s field * field.width) ∧ paddingFits s record field = true := by
  cases repetition : field.repetition with
  | none => simp [Field.wireBits?, shape, repetition, Record.repeats, paddingFits, eq_comm]
  | constant count =>
    simp only [Field.wireBits?, shape, repetition, map_eq_ok, Size.mul_eq_ok, Record.repeats,
      paddingFits, decide_eq_true_eq]
    constructor
    · rintro ⟨_, ⟨rfl, small⟩, rfl⟩
      exact ⟨by rw [Nat.mul_comm], small⟩
    · rintro ⟨rfl, small⟩
      exact ⟨_, ⟨rfl, small⟩, by rw [Nat.mul_comm]⟩
  | fieldRef index => exact absurd repetition (known index)

variable (bits) in
theorem encodeImplied_emits (formed : field.WellFormed) (wide : field.isPacked = false) :
    Emits (encodeImplied s record field) fun _ out => out = fieldBits bits s record field ∧
      (field.shape = .padding → paddingFits s record field = true) := by
  unfold encodeImplied
  split
  · next shape =>
    have whole := formed.whole wide (by simp [shape])
    split
    · next index repetition =>
      refine emits_bind emits_check fun count _ first => ?_
      refine emits_bind emits_check fun size _ second => ?_
      obtain ⟨rfl, counted⟩ := first
      obtain ⟨rfl, sized⟩ := second
      obtain ⟨rfl, small⟩ := Size.mul_eq_ok.mp sized
      have count := repeats_fieldRef repetition counted
      refine emits_zeros ⟨?_, fun _ => ?_⟩
      · simp only [List.nil_append, fieldBits, shape, count]
        rw [Nat.mul_left_comm, whole]
      · simpa [paddingFits, repetition, count] using small
    · next other =>
      refine emits_bind emits_check fun size _ sized => ?_
      obtain ⟨rfl, sized⟩ := sized
      obtain ⟨rfl, fits⟩ := (wireBits?_padding s record shape other).mp sized
      refine emits_zeros ⟨?_, fun _ => fits⟩
      simp only [List.nil_append, fieldBits, shape]
      rw [Option.getD_some, ← whole, Nat.mul_left_comm, Nat.mul_div_cancel_left _ (by decide),
        Nat.mul_left_comm]
  · next shape =>
    refine emits_parity ?_
    simp [fieldBits, shape]
  · next shape =>
    refine emits_pure ?_
    simp [fieldBits, shape]
  · next shape fixed =>
    refine emits_unsigned (formed.whole wide (by simp [shape])) ?_
    simp [fieldBits, fixedBits, shape, fixed]
  · next shape fixed =>
    refine emits_unsigned (formed.whole wide (by simp [shape, Shape.isScalar])) ?_
    simp [fieldBits, fixedBits, shape, fixed]
  · exact emits_fault

structure Written (fits : String → Value → Bool) (s : Struct) (record : Record) (field : Field) :
    Prop where
  stored : field.isStored = true → ∃ value, record.lookup field.id = some value ∧
    fieldFits s record field value = true ∧
    ∀ typeId, field.shape = .struct typeId →
      ∀ element ∈ field.elements value, fits typeId element = true
  padding : field.shape = .padding → paddingFits s record field = true

theorem encodeAligned_emits (parts : EncodesNested nested bits fits) (formed : field.WellFormed)
    (wide : field.isPacked = false) :
    Emits (encodeAligned nested s record field) fun _ out =>
      out = fieldBits bits s record field ∧ Written fits s record field := by
  unfold encodeAligned
  split
  · next stored =>
    refine emits_bind emits_check fun value _ found => ?_
    refine emits_bind checkCount_emits fun _ _ counted => ?_
    refine (encodeStored_emits parts formed wide).mono fun _ out written => ?_
    obtain ⟨rfl, found⟩ := found
    obtain ⟨rfl, counted⟩ := counted
    obtain ⟨rfl, checked⟩ := written
    replace found := Record.get_eq_ok.mp found
    have holds : field.shape ≠ .padding := by
      intro shape
      simp [Field.isStored, shape] at stored
    refine ⟨?_, fun _ => ⟨value, found, ?_, fun typeId shape element member =>
      (checked element member).2 typeId shape⟩, fun shape => absurd shape holds⟩
    · rw [fieldBits_stored stored, Record.elements_of_lookup found, List.nil_append,
        List.nil_append]
    · exact fieldFits_iff.mpr ⟨counted, fun element member => (checked element member).1⟩
  · next implied =>
    refine (encodeImplied_emits bits formed wide).mono fun _ _ written => ?_
    exact ⟨written.1, fun stored => absurd stored implied, written.2⟩

def packedNumber (record : Record) (field : Field) : Nat :=
  match field.fixed, record.lookup field.id with
  | some value, _ => value
  | none, some (.unsigned n) => if field.seq then n % 1 <<< field.width else n
  | none, some (.enum value) => value.toNat
  | none, _ => 0

structure Packs (bits : String → Value → List Bool) (fits : String → Value → Bool) (s : Struct)
    (record : Record) (field : Field) : Prop where
  bound : packedNumber record field < 1 <<< field.width
  bits : bitsOfNat field.width (packedNumber record field) = fieldBits bits s record field
  written : Written fits s record field

theorem packs_fixed {n : Nat} (formed : field.WellFormed) (packed : field.isPacked = true)
    (fixed : field.fixed = some n) : Packs bits fits s record field := by
  obtain ⟨narrow, single, shape⟩ := formed.packed packed
  have fixes := (formed.fixed n fixed).2
  have number : packedNumber record field = n := by simp [packedNumber, fixed]
  rcases shape with shape | ⟨typeId, shape⟩
  · rw [shape] at fixes
    refine ⟨?_, ?_, fun stored => ?_, fun padding => ?_⟩
    · rw [number]
      exact (le_maxOfWidth_iff (by omega)).mp fixes
    · simp [number, fieldBits, fixedBits, shape, fixed]
    · simp [Field.isStored, fixed] at stored
    · simp [shape] at padding
  · rw [shape] at fixes
    exact fixes.elim

theorem packs_stored (formed : field.WellFormed) (packed : field.isPacked = true)
    (free : field.fixed = none) (found : record.lookup field.id = some value)
    (bound : packedNumber record field < 1 <<< field.width)
    (same : bitsOfNat field.width (packedNumber record field) = elementBits bits field value)
    (fit : elementFits field value = true) : Packs bits fits s record field := by
  obtain ⟨-, single, shape⟩ := formed.packed packed
  have stored : field.isStored = true := by
    rcases shape with shape | ⟨typeId, shape⟩ <;>
      simp [Field.isStored, shape, free, Shape.isParity]
  have elements := Field.elements_single single value
  refine ⟨bound, ?_, fun _ => ⟨value, found, fieldFits_iff.mpr ⟨?_, ?_⟩, ?_⟩, fun padding => ?_⟩
  · rw [fieldBits_stored stored, Record.elements_of_lookup found, elements, same,
      List.flatMap_singleton]
  · simp [single]
  · simpa [elements] using fit
  · rcases shape with shape | ⟨typeId, shape⟩ <;> simp [shape]
  · rcases shape with shape | ⟨typeId, shape⟩ <;> simp [shape] at padding

theorem packedNumber_unsigned {n : Nat} (free : field.fixed = none)
    (found : record.lookup field.id = some (.unsigned n)) :
    packedNumber record field = if field.seq then n % 1 <<< field.width else n := by
  simp [packedNumber, free, found]

theorem packedNumber_enum {v : EnumValue} (free : field.fixed = none)
    (found : record.lookup field.id = some (.enum v)) : packedNumber record field = v.toNat := by
  simp [packedNumber, free, found]

theorem packs_unsigned {n : Nat} (formed : field.WellFormed) (packed : field.isPacked = true)
    (free : field.fixed = none) (found : record.lookup field.id = some (.unsigned n))
    (inside : field.seq = true ∨ n < 1 <<< field.width) : Packs bits fits s record field := by
  have number := packedNumber_unsigned free found
  obtain ⟨-, -, shape⟩ := formed.packed packed
  refine packs_stored formed packed free found ?_ ?_ ?_
  · rw [number]
    split
    · rw [Nat.one_shiftLeft]
      exact Nat.mod_lt _ (Nat.two_pow_pos _)
    · next plain => exact inside.resolve_left plain
  · have same : bitsOfNat field.width (packedNumber record field) = bitsOfNat field.width n := by
      rw [number]
      split
      · exact bitsOfNat_mod _ _
      · rfl
    rw [same]
    rcases shape with shape | ⟨typeId, shape⟩ <;> simp [elementBits, shape]
  · rcases shape with shape | ⟨typeId, shape⟩ <;> simp [elementFits, shape, inside]

theorem packs_enum {v : EnumValue} (formed : field.WellFormed) (packed : field.isPacked = true)
    (free : field.fixed = none) (found : record.lookup field.id = some (.enum v))
    (inside : v.toNat < 1 <<< field.width) : Packs bits fits s record field := by
  have number := packedNumber_enum free found
  obtain ⟨-, -, shape⟩ := formed.packed packed
  refine packs_stored formed packed free found (by rwa [number]) ?_ ?_
  · rw [number]
    rcases shape with shape | ⟨typeId, shape⟩ <;> simp [elementBits, shape]
  · rcases shape with shape | ⟨typeId, shape⟩ <;> simp [elementFits, shape, inside]

variable (bits fits) in
theorem packedValue_emits (formed : field.WellFormed) (packed : field.isPacked = true) :
    Emits (packedValue s record field) fun n out =>
      out = [] ∧ n = packedNumber record field ∧ Packs bits fits s record field := by
  obtain ⟨narrow, -, shape⟩ := formed.packed packed
  unfold packedValue
  split
  · next value fixed =>
    exact emits_pure ⟨rfl, by simp [packedNumber, fixed], packs_fixed formed packed fixed⟩
  · next free =>
    refine emits_bind emits_check fun value _ found => ?_
    obtain ⟨rfl, found⟩ := found
    replace found := Record.get_eq_ok.mp found
    split
    · next n =>
      have number := packedNumber_unsigned free found
      split
      · next seq =>
        rw [if_pos seq] at number
        exact emits_pure ⟨rfl, number.symm, packs_unsigned formed packed free found (.inl seq)⟩
      · next plain =>
        rw [if_neg plain] at number
        refine emits_bind (checkRange_emits (by omega)) fun _ _ checked => emits_pure ?_
        obtain ⟨rfl, inside⟩ := checked
        exact ⟨rfl, number.symm, packs_unsigned formed packed free found (.inr inside)⟩
    · next value =>
      refine emits_bind (checkRange_emits (by omega)) fun _ _ checked => emits_pure ?_
      obtain ⟨rfl, inside⟩ := checked
      exact ⟨rfl, (packedNumber_enum free found).symm, packs_enum formed packed free found inside⟩
    · exact emits_illTyped

theorem encodeChunk_emits {fields : List Field} (formed : ∀ field ∈ fields, field.WellFormed)
    (packed : ∀ field ∈ fields, field.isPacked = true) (whole : totalWidth fields % 8 = 0) :
    Emits (encodeChunk s record
        ⟨totalWidth fields, BitWindow.place (totalWidth fields) (widthsOf fields)⟩) fun _ out =>
      out = fields.flatMap (fieldBits bits s record) ∧
      ∀ field ∈ fields, Written fits s record field := by
  have symbols := BitWindow.place_symbols (totalWidth fields) fields
  have each : ∀ packed ∈ BitWindow.place (totalWidth fields) (widthsOf fields),
      Emits (do return (← packedValue s record packed.symbol) <<< packed.shift) fun term out =>
        out = [] ∧ term = packedNumber record packed.symbol <<< packed.shift ∧
        Packs bits fits s record packed.symbol := by
    intro placed member
    have inside : placed.symbol ∈ fields := symbols ▸ List.mem_map_of_mem member
    refine emits_bind (packedValue_emits bits fits (formed _ inside) (packed _ inside)) ?_
    rintro n _ ⟨rfl, rfl, packs⟩
    exact emits_pure ⟨rfl, rfl, packs⟩
  refine emits_bind (emits_mapM each) ?_
  rintro terms _ ⟨rfl, rfl, packs⟩
  replace packs : ∀ field ∈ fields, Packs bits fits s record field := by
    rw [← symbols]
    exact List.forall_mem_map.mpr packs
  obtain ⟨word, -, joined, wordBits⟩ :=
    BitWindow.place_join fields (packedNumber record) fun field member => (packs field member).bound
  refine emits_unsigned (Nat.mul_div_cancel' (Nat.dvd_of_mod_eq_zero whole))
    ⟨?_, fun field member => (packs field member).written⟩
  rw [joined, Nat.zero_or, wordBits, List.nil_append, List.flatMap_def, List.flatMap_def,
    List.map_congr_left fun field member => (packs field member).bits]

theorem encodeSegment_emits {segment : Segment} (parts : EncodesNested nested bits fits)
    (formed : ∀ field ∈ segment.fields, field.WellFormed) (sound : segment.Sound) :
    Emits (encodeSegment nested s record segment) fun _ out =>
      out = segment.fields.flatMap (fieldBits bits s record) ∧
      ∀ field ∈ segment.fields, Written fits s record field := by
  cases segment with
  | chunk shared =>
    obtain ⟨fields, -, rfl, whole, packed⟩ := sound
    rw [Segment.fields, BitWindow.place_symbols] at formed ⊢
    exact encodeChunk_emits formed packed whole
  | aligned field =>
    refine (encodeAligned_emits parts (formed field (.head _)) sound).mono fun _ out written => ?_
    simpa [Segment.fields] using written

/-- A value fits if all of its fields can be written. -/
theorem everyRecord_recordFits (formed : ∀ field ∈ s.fields, field.WellFormed) :
    everyRecord recordFits fits s (.record record) = true ↔
      ∀ field ∈ s.fields, Written fits s record field := by
  simp only [everyRecord, recordFits, Bool.and_eq_true, List.all_eq_true]
  constructor
  · rintro ⟨fit, nested⟩ field member
    have fit := fit field member
    refine ⟨fun stored => ?_, fun padding => ?_⟩
    · rw [if_pos stored] at fit
      obtain ⟨value, found, fit⟩ := (Option.any_eq_true _ _).mp fit
      refine ⟨value, found, fit, fun typeId shape => ?_⟩
      have nested := nested field member
      rw [shape] at nested
      rwa [Record.elements_of_lookup found, List.all_eq_true] at nested
    · rw [if_neg (by simp [Field.isStored, padding])] at fit
      simpa [padding] using fit
  · intro written
    refine ⟨fun field member => ?_, fun field member => ?_⟩
    · split
      · next stored =>
        obtain ⟨value, found, fit, -⟩ := (written field member).stored stored
        simp [found, fit]
      · by_cases padding : field.shape = .padding
        · simp [(written field member).padding padding]
        · simp [padding]
    · split
      · next typeId shape =>
        have free : field.fixed = none := by
          cases fixed : field.fixed with
          | none => rfl
          | some n =>
            have fixes := ((formed field member).fixed n fixed).2
            rw [shape] at fixes
            exact fixes.elim
        obtain ⟨value, found, -, nested⟩ := (written field member).stored (by
          simp [Field.isStored, free, shape, Shape.isParity])
        rw [Record.elements_of_lookup found, List.all_eq_true]
        exact nested typeId shape
      · rfl

/-- The encoder of a structure writes the bits of its fields and refuses a value that does not
fit. -/
theorem encodeStruct_emits {window : Nat} (parts : EncodesNested nested bits fits)
    (formed : ∀ field ∈ s.fields, field.WellFormed) :
    Emits (encodeStruct window nested s value) fun _ out =>
      out = structBits bits s value ∧ everyRecord recordFits fits s value = true := by
  cases value with
  | record record =>
    refine emits_bind emits_check ?_
    rintro segments _ ⟨rfl, laid⟩
    obtain ⟨whole, sound⟩ := layout_fields laid
    refine (emits_forM fun segment member => encodeSegment_emits parts (fun field inside => ?_)
      (sound segment member)).mono ?_
    · exact formed field (whole ▸ List.mem_flatMap.mpr ⟨segment, member, inside⟩)
    · rintro _ out ⟨rfl, written⟩
      refine ⟨?_, (everyRecord_recordFits formed).mpr fun field member => ?_⟩
      · rw [structBits, ← whole, List.flatMap_assoc, List.nil_append]
      · obtain ⟨segment, within, inside⟩ := List.mem_flatMap.mp (whole ▸ member)
        exact written segment within field inside
  | _ => exact emits_fault

/-- The encoders of a list of structures write the format's bits. -/
theorem encodesNested_meaning {window : Nat} {structs : List Struct}
    (formed : ∀ s ∈ structs, ∀ field ∈ s.fields, field.WellFormed) :
    EncodesNested (meaningIn? (encodeStruct window) structs)
      (meaningOr (fun _ => []) structBits structs)
      (meaningOr (fun _ => false) (everyRecord recordFits) structs) := by
  induction structs with
  | nil => nofun
  | cons s earlier ih =>
    have parts := ih fun other member => formed other (.tail _ member)
    intro id encoder found value
    rw [meaningIn?] at found
    rw [meaningOr, meaningOr]
    split at found
    · next same =>
      cases found
      rw [if_pos same, if_pos same]
      exact encodeStruct_emits parts (formed s (.head _))
    · next other =>
      rw [if_neg other, if_neg other]
      exact parts id encoder found value

end Codec

theorem Model.WellFormed.fields {model : Model} {window : Nat} (formed : model.WellFormed window) :
    ∀ s ∈ model.structs, ∀ field ∈ s.fields, field.WellFormed := by
  intro s member
  obtain ⟨earlier, later, split⟩ := List.append_of_mem member
  exact (formed.structs earlier s later split).fields.each

theorem Model.encode_emits {model : Model} {window : Nat} {id : String} {value : Value}
    (formed : model.WellFormed window) :
    Emits (model.encode window id value) fun _ out =>
      out = model.wireBits id value ∧ model.fits id value = true := by
  unfold Model.encode
  refine emits_bind emits_check ?_
  rintro encoder _ ⟨rfl, found⟩
  refine Codec.encodesNested_meaning (fun s member => ?_) id encoder
    (Model.meaning_eq_ok.mp found) value
  exact formed.fields s (List.mem_reverse.mp member)

/-- The bytes of a value have the format's bits, and the value fits. -/
theorem Model.encodeToBytes_bits {model : Model} {window : Nat} {id : String} {value : Value}
    {bytes : Bytes} (formed : model.WellFormed window)
    (encoded : model.encodeToBytes window id value = .ok (.ok bytes)) :
    bitsOfBytes bytes = model.wireBits id value ∧ model.fits id value = true := by
  simp only [encodeToBytes, bind_eq_ok] at encoded
  obtain ⟨size, -, _, -, ⟨result, writer⟩, run, finish⟩ := encoded
  rw [pure_eq_ok] at finish
  rcases result with _ | _
  · cases finish
  · cases finish
    obtain ⟨written, room, rfl, holds⟩ := Model.encode_emits formed ⟨rfl, Nat.zero_le _⟩ run
    rwa [Writer.append_written room]

def sampleRecord : Record := [
  ("global_seq", .unsigned 0x12345),
  ("mode", .enum (.named ⟨"On", 1⟩)),
  ("entry_count", .unsigned 1),
  ("entries", .list [.record [("entry_descriptor", .descriptor 0x7fff), ("gain", .signed (-2))]]),
  ("peer_descriptor", .descriptor 0x50030),
  ("data_length", .unsigned 2)]

def sampleBytes : Bytes :=
  [0x00, 0x30, 0x21, 0x23, 0x45, 0x7f, 0xff, 0xfe, 0x00, 0x00, 0x00, 0x00, 0x30, 0x02]

theorem eq_ok_of_toOption {α β : Type} {result : Except Fault (Except α β)} {b : β}
    (known : result.toOption.bind Except.toOption = some b) : result = .ok (.ok b) := by
  revert known
  rcases result with _ | (_ | _) <;> simp [Except.toOption]

theorem encodeToBytes_sample :
    sampleModel.encodeToBytes 32 sampleStruct.id (.record sampleRecord) = .ok (.ok sampleBytes) :=
  eq_ok_of_toOption (by decide +kernel)

theorem sampleStruct_mem : sampleStruct ∈ sampleModel.structs := .tail _ (.head _)

end PacketSpec
