import PacketSpec.Proofs.Codec.Encoding
import PacketSpec.Proofs.Codec.Reading
import PacketSpec.Proofs.Codec.Values
import PacketSpec.Proofs.Keyed

/-! Reading the bits of a field, or of the fields of a segment, stores their values in normal
form. -/
namespace PacketSpec

open Wire Decode Format

/-- A member is found by its value. -/
theorem Enum.WellFormed.ofNat_value {e : Enum} (formed : e.WellFormed) {member : EnumMember}
    (listed : member ∈ e.members) : e.ofNat member.value = .named member := by
  simp [Enum.ofNat, find?_of_nodup formed.values listed]

def Shape.isElement : Shape → Bool
  | .scalar _ | .rational | .struct _ | .enum _ => true
  | _ => false

namespace Codec

def DecodesNested (model : Model) (nested : String → Option Decoder)
    (bits : String → Value → List Bool) (normal : String → Value → Value)
    (good : String → Value → Bool) : Prop :=
  ∀ id ∈ model.substructs, ∀ value, good id value = true → ∃ decoder, nested id = some decoder ∧
    Parses decoder (bits id value) (normal id value, none) ∧ 0 < (bits id value).length

variable {model : Model} {nested : String → Option Decoder} {bits : String → Value → List Bool}
  {normal : String → Value → Value} {good : String → Value → Bool} {s : Struct} {record : Record}
  {field : Field} {value : Value}

structure Resolved (model : Model) (field : Field) : Prop where
  structs : ∀ typeId, field.shape = .struct typeId → typeId ∈ model.substructs
  enums : ∀ typeId, field.shape = .enum typeId → ∃ e, model.enum? typeId = some e ∧ e.WellFormed

structure GoodElement (model : Model) (good : String → Value → Bool) (field : Field)
    (value : Value) : Prop where
  typed : elementTyped model field value = true
  fits : elementFits field value = true
  nested : ∀ typeId, field.shape = .struct typeId → good typeId value = true

variable (normal) in
/-- The number of an enumeration reads as the normal form of its value. -/
theorem normalElement_enum {typeId : String} {v : EnumValue} (resolved : Resolved model field)
    (shape : field.shape = .enum typeId) (plain : field.seq = false)
    (typed : elementTyped model field (.enum v) = true) :
    ∃ e, model.enum typeId = .ok e ∧
      normalElement model normal field (.enum v) = .enum (e.ofNat v.toNat) := by
  obtain ⟨e, known, formed⟩ := resolved.enums typeId shape
  refine ⟨e, by simp [Model.enum, known], ?_⟩
  cases v with
  | unknown n => simp [normalElement, shape, known, EnumValue.toNat]
  | named member =>
    simp only [elementTyped, plain, shape, known, Option.any_some, List.contains_iff_mem] at typed
    simp [normalElement, shape, EnumValue.toNat, formed.ofNat_value typed]

theorem decodeElement_parses (parts : DecodesNested model nested bits normal good)
    (formed : field.WellFormed) (resolved : Resolved model field) (wide : field.isPacked = false)
    (plain : field.seq = false) (kind : field.shape.isElement = true)
    (element : GoodElement model good field value) :
    Parses (decodeElement model nested field) (elementBits bits field value)
      (normalElement model normal field value) := by
  have typed := element.typed
  have fits := element.fits
  unfold decodeElement
  simp only
  split
  · next shape =>
    have whole := formed.whole wide (by simp [shape, Shape.isScalar])
    have admits := formed.shape
    rw [shape] at admits
    have positive : 0 < field.width := by grind [Shape.Admits]
    cases value <;> simp only [elementTyped, plain, shape, Bool.false_eq_true] at typed
    next n =>
      simp only [elementBits, normalElement, shape]
      exact (parses_signed whole positive (of_decide_eq_true typed)).return Value.signed
  · next shape =>
    have whole := formed.whole wide (by simp [shape, Shape.isScalar])
    cases value <;> simp only [elementTyped, plain, shape, Bool.false_eq_true] at typed
    next n =>
      have small : n % 1 <<< field.width = n := Nat.mod_eq_of_lt (of_decide_eq_true typed)
      have parses := (parses_unsigned whole n).return Value.unsigned
      rw [small] at parses
      simpa [elementBits, normalElement, shape, plain] using parses
  · next shape =>
    cases value <;> simp only [elementTyped, plain, shape, Bool.false_eq_true] at typed
    next value =>
      simp only [Bool.and_eq_true, decide_eq_true_eq] at typed
      simp only [elementBits, normalElement, shape]
      exact (parses_rational typed.1 typed.2).return Value.rational
  · next typeId shape =>
    obtain ⟨decoder, known, parses, -⟩ :=
      parts typeId (resolved.structs typeId shape) value (element.nested typeId shape)
    simp only [elementBits, normalElement, shape, known]
    exact parses.map Prod.fst
  · next typeId shape =>
    have whole := formed.whole wide (by simp [shape, Shape.isEnum])
    cases value <;> try simp only [elementTyped, plain, shape, Bool.false_eq_true] at typed
    next v =>
      obtain ⟨e, known, same⟩ :=
        normalElement_enum normal resolved shape plain element.typed
      have small : v.toNat % 1 <<< field.width = v.toNat := by
        simp only [elementFits, shape, decide_eq_true_eq] at fits
        exact Nat.mod_eq_of_lt fits
      have parses := (parses_unsigned whole v.toNat).return fun n => Value.enum (e.ofNat n)
      rw [small] at parses
      rw [same]
      simp only [elementBits, shape]
      exact (parses_check known).after parses
  · next other =>
    cases shape : field.shape <;> simp_all [Shape.isElement]

structure GoodValue (model : Model) (good : String → Value → Bool) (field : Field)
    (value : Value) : Prop where
  typed : fieldTyped model field value = true
  fits : ∀ element ∈ field.elements value, elementFits field element = true
  nested : ∀ typeId, field.shape = .struct typeId →
    ∀ element ∈ field.elements value, good typeId element = true

/-- All elements of a field but nested structures have its width. -/
theorem elementBits_length (formed : field.WellFormed) (flat : field.shape.isStruct = false)
    (typed : elementTyped model field value = true) :
    (elementBits bits field value).length = field.width := by
  have admits := formed.shape
  unfold elementTyped at typed
  split at typed
  · -- sequence numbers, whatever their shape
    cases shape : field.shape <;> simp [shape, Shape.isStruct, elementBits] at flat ⊢
  all_goals simp_all [elementBits, Shape.isStruct, Shape.Admits, FixedText.length_raw]

theorem length_flatMap_const {α β : Type} {items : List α} {f : α → List β} {size : Nat}
    (each : ∀ item ∈ items, (f item).length = size) :
    (items.flatMap f).length = items.length * size := by
  induction items with
  | nil => simp
  | cons item rest ih =>
    rw [List.flatMap_cons, List.length_append, each item (.head _),
      ih fun other member => each other (.tail _ member), List.length_cons, Nat.succ_mul,
      Nat.add_comm]

theorem arrayTyped_cases (typed : arrayTyped model field value = true) :
    (∃ buffer, value = .bytes buffer ∧ field.isByteBuffer = true) ∨
    ∃ elements, value = .list elements ∧ field.isByteBuffer = false ∧
      ∀ element ∈ elements, elementTyped model field element = true := by
  cases value <;> simp_all [arrayTyped]

/-- A byte buffer stands on the wire as it is. -/
theorem buffer_bits {buffer : Bytes} (buffered : field.isByteBuffer = true) :
    (field.elements (.bytes buffer)).flatMap (elementBits bits field) = bitsOfBytes buffer := by
  have shape : field.shape = .scalar false := by
    simp [Field.isByteBuffer] at buffered
    exact buffered.1.1
  simp [field.elements_lone, elementBits, shape]

theorem decodeElements_parses (parts : DecodesNested model nested bits normal good)
    (formed : field.WellFormed) (resolved : Resolved model field) (wide : field.isPacked = false)
    (plain : field.seq = false) (kind : field.shape.isElement = true)
    (goodValue : GoodValue model good field value)
    (counted : ∀ index, field.repetition = .fieldRef index →
      record.countAt s index = .ok value.count) :
    Parses (decodeElements model nested s record field)
      ((field.elements value).flatMap (elementBits bits field))
      (normalField model normal field value) := by
  have typed := goodValue.typed
  have each (list : List Value) (same : field.elements value = list)
      (listed : ∀ element ∈ list, elementTyped model field element = true) :
      ∀ element ∈ list, Parses (decodeElement model nested field) (elementBits bits field element)
        (normalElement model normal field element) := by
    intro element member
    refine decodeElement_parses parts formed resolved wide plain kind
      ⟨listed element member, goodValue.fits element (same ▸ member), fun typeId shape =>
        goodValue.nested typeId shape element (same ▸ member)⟩
  unfold decodeElements
  simp only
  split
  · next single =>
    have elements := Field.elements_single single value
    rw [elements, List.flatMap_singleton]
    simp only [fieldTyped, single] at typed
    simp only [normalField, single]
    exact each [value] elements (by simpa using typed) value (.head _)
  · next count repetition =>
    have several : field.repetition ≠ .none := by simp [repetition]
    simp only [fieldTyped, repetition, Bool.and_eq_true, beq_iff_eq] at typed
    obtain ⟨typed, rfl⟩ := typed
    rcases arrayTyped_cases typed with ⟨buffer, rfl, buffered⟩ | ⟨elements, rfl, listed, typed⟩
    · rw [if_pos buffered, buffer_bits buffered]
      simp only [normalField, repetition]
      exact (parses_array buffer).return Value.bytes
    · have same := Field.elements_list several elements
      rw [if_neg (by simp [listed]), same]
      simp only [normalField, repetition]
      exact (parses_times (each elements same typed)).return Value.list
  · next index repetition =>
    have several : field.repetition ≠ .none := by simp [repetition]
    simp only [fieldTyped, repetition] at typed
    refine (parses_check (counted index repetition)).after ?_
    rcases arrayTyped_cases typed with ⟨buffer, rfl, buffered⟩ | ⟨elements, rfl, listed, typed⟩
    · rw [if_pos buffered, buffer_bits buffered]
      simp only [normalField, repetition]
      exact (parses_slice buffer).return Value.bytes
    · have same := Field.elements_list several elements
      have each := each elements same typed
      rw [if_neg (by simp [listed]), same]
      simp only [normalField, repetition]
      split
      · next nesting =>
        refine (parses_upTo each fun element member => ?_).return Value.list
        obtain ⟨typeId, shape⟩ : ∃ typeId, field.shape = .struct typeId := by
          cases shape : field.shape <;> simp_all [Shape.isStruct]
        obtain ⟨-, -, -, positive⟩ := parts typeId (resolved.structs typeId shape) element
          (goodValue.nested typeId shape element (by rwa [same]))
        simpa only [elementBits, shape] using positive
      · next flat =>
        refine parses_remaining fun available enough => ?_
        have whole : 8 * (field.width / 8) = field.width ∧ 0 < field.width := by
          have admits := formed.shape
          cases shape : field.shape <;>
            simp_all [Shape.isElement, Shape.isStruct, Shape.Admits] <;>
            grind [Field.isPacked, Shape.isEnum]
        have sized : min elements.length (available / (field.width / 8)) = elements.length := by
          rw [length_flatMap_const fun element member =>
            elementBits_length formed (eq_false_of_ne_true flat) (typed element member)]
            at enough
          refine Nat.min_eq_left ((Nat.le_div_iff_mul_le (by omega)).mpr ?_)
          rw [← whole.1, Nat.mul_left_comm] at enough
          omega
        simp only [Value.count, sized]
        exact (parses_times each).return Value.list

theorem upper_byte (code : Nat) : ((wireCode code >>> 8) % 1 <<< 8) <<< 8 = code &&& 0xff00 := by
  apply Nat.eq_of_testBit_eq
  intro i
  have mask : 0xff00 = (2 ^ 8 - 1) <<< 8 := by decide
  rw [Nat.testBit_and, mask, wireCode, Nat.testBit_shiftLeft, Nat.testBit_shiftLeft,
    Nat.one_shiftLeft, Nat.one_shiftLeft, Nat.testBit_mod_two_pow, Nat.testBit_shiftRight,
    Nat.testBit_mod_two_pow, Nat.testBit_two_pow_sub_one]
  by_cases high : 8 ≤ i
  · rw [Nat.add_sub_cancel' high]
    have inside : i - 8 < 8 ↔ i < 16 := by omega
    by_cases low : i < 16 <;> simp [high, low, inside]
  · simp [high]

/-- The number of a descriptor reads as the normal form of its code. -/
theorem descriptor_normal (width : field.width ∈ [8, 16, 32]) (code : Nat) :
    (if field.width == 8 then (descriptorNumber field code % 1 <<< field.width) <<< 8 ||| lsbFlag
      else descriptorNumber field code % 1 <<< field.width) =
    if field.width = 8 then code &&& 0xff00 ||| lsbFlag else code &&& 0xffff := by
  have lower : wireCode code = code &&& 0xffff := (Nat.and_two_pow_sub_one_eq_mod code 16).symm
  have small : wireCode code < 1 <<< 16 := Nat.mod_lt _ (by decide)
  simp only [List.mem_cons, List.not_mem_nil, or_false] at width
  rcases width with width | width | width
  · simp only [descriptorNumber, width, beq_self_eq_true, if_true]
    rw [upper_byte]
  · simp only [descriptorNumber, width]
    rw [← lower]
    exact Nat.mod_eq_of_lt small
  · simp only [descriptorNumber, width]
    rw [← lower]
    exact Nat.mod_eq_of_lt (Nat.lt_trans small (by decide))

theorem decodeStored_parses (parts : DecodesNested model nested bits normal good)
    (formed : field.WellFormed) (resolved : Resolved model field) (wide : field.isPacked = false)
    (stored : field.isStored = true) (goodValue : GoodValue model good field value)
    (counted : ∀ index, field.repetition = .fieldRef index →
      record.countAt s index = .ok value.count) :
    Parses (decodeStored model nested s record field)
      ((field.elements value).flatMap (elementBits bits field))
      (normalField model normal field value) := by
  have typed := goodValue.typed
  have plain (other : field.shape.isScalar = false ∧ field.shape ≠ .bitfield) :
      field.seq = false := by
    cases seq : field.seq with
    | false => rfl
    | true =>
      rcases (formed.seq seq).1 with scalar | bitfield
      · simp [other.1] at scalar
      · exact absurd bitfield other.2
  unfold decodeStored
  simp only
  split
  · next shape =>
    split
    · next seq =>
      have single := (formed.seq seq).2
      have whole := formed.whole wide (by simp [shape, Shape.isScalar])
      simp only [fieldTyped, single] at typed
      cases value <;> simp only [elementTyped, seq, shape, Bool.false_eq_true] at typed
      next n =>
        have parses := (parses_unsigned whole n).return Value.unsigned
        simpa [Field.elements_single single, normalField, single, elementBits, normalElement, shape,
          seq] using parses
    · next plain =>
      exact decodeElements_parses parts formed resolved wide (eq_false_of_ne_true plain)
        (by simp [shape, Shape.isElement]) goodValue counted
  · next shape =>
    exact decodeElements_parses parts formed resolved wide (plain (by simp [shape, Shape.isScalar]))
      (by simp [shape, Shape.isElement]) goodValue counted
  · next shape =>
    exact decodeElements_parses parts formed resolved wide (plain (by simp [shape, Shape.isScalar]))
      (by simp [shape, Shape.isElement]) goodValue counted
  · next shape =>
    exact decodeElements_parses parts formed resolved wide (plain (by simp [shape, Shape.isScalar]))
      (by simp [shape, Shape.isElement]) goodValue counted
  · next shape =>
    have admits := formed.shape
    simp only [shape, Shape.Admits] at admits
    have single := admits.2.2
    have plain := plain (by simp [shape, Shape.isScalar])
    simp only [fieldTyped, single] at typed
    cases value <;> simp [elementTyped, shape, plain] at typed
    next buffer =>
      have size : field.width / 8 = buffer.length := by omega
      rw [size]
      simpa [Field.elements_single single, normalField, single, elementBits, normalElement, shape]
        using (parses_array buffer).return Value.bytes
  · next capacity shape =>
    have admits := formed.shape
    simp only [shape, Shape.Admits] at admits
    have single := admits.2.2
    have plain := plain (by simp [shape, Shape.isScalar])
    simp only [fieldTyped, single] at typed
    cases value <;> simp [elementTyped, shape, plain] at typed
    next text =>
      subst typed
      simpa [Field.elements_single single, normalField, single, elementBits, normalElement, shape]
        using (parses_fixedText text).return (Value.text _)
  · next shape =>
    have admits := formed.shape
    simp only [shape, Shape.Admits] at admits
    have single := admits.2
    have plain := plain (by simp [shape, Shape.isScalar])
    have whole := formed.whole wide (by simp [shape])
    simp only [fieldTyped, single] at typed
    cases value <;> simp [elementTyped, shape, plain] at typed
    next code =>
      have parses := (parses_unsigned whole (descriptorNumber field code)).return fun n =>
        Value.descriptor (if field.width == 8 then n <<< 8 ||| lsbFlag else n)
      rw [descriptor_normal admits.1] at parses
      simpa [Field.elements_single single, normalField, single, elementBits, normalElement, shape]
        using parses
  · next other =>
    have admits := formed.shape
    unfold Shape.Admits at admits
    cases shape : field.shape <;> simp_all [Field.isStored, Shape.isParity]
    simp_all [Field.isPacked]
    omega

structure GoodField (model : Model) (good : String → Value → Bool) (s : Struct) (record : Record)
    (field : Field) : Prop where
  formed : field.WellFormed
  resolved : Resolved model field
  stored : field.isStored = true → ∃ value, record.lookup field.id = some value ∧
    GoodValue model good field value ∧
    ∀ index, field.repetition = .fieldRef index → value.count = record.repeats s field
  padding : field.shape = .padding → paddingFits s record field = true

@[simp] theorem Parsed.lookup_store_self {parsed : Parsed} :
    (parsed.store field value).record.lookup field.id = some value := by
  simp [Parsed.store]

theorem Parsed.lookup_store_other {parsed : Parsed} {id : String} (other : field.id ≠ id) :
    (parsed.store field value).record.lookup id = parsed.record.lookup id := by
  have distinct : (id == field.id) = false := by simpa using other.symm
  simp [Parsed.store, List.lookup_cons, distinct]

/-- Stores the value that a record has for the field, if it is a stored one. -/
def Parsed.hold (target : Record) (parsed : Parsed) (field : Field) : Parsed :=
  if field.isStored then parsed.store field ((target.lookup field.id).getD default) else parsed

theorem Parsed.hold_stored {target : Record} {parsed : Parsed} (stored : field.isStored = true)
    (found : target.lookup field.id = some value) :
    parsed.hold target field = parsed.store field value := by
  simp [Parsed.hold, stored, found]

theorem Parsed.hold_implied {target : Record} {parsed : Parsed} (implied : field.isStored = false) :
    parsed.hold target field = parsed := by
  simp [Parsed.hold, implied]

theorem parses_checkFixed {actual expected : Nat} (same : actual = expected) :
    Parses (checkFixed s field actual expected) [] () := by
  rw [checkFixed, if_pos (by simpa using same)]
  exact parses_pure ()

theorem fixed_descriptor {n : Nat} (formed : field.WellFormed) (shape : field.shape = .descriptor)
    (fixed : field.fixed = some n) :
    (if field.width == 8 then ((if field.width = 8 then n >>> 8 else n) % 1 <<< field.width) <<< 8
      else (if field.width = 8 then n >>> 8 else n) % 1 <<< field.width) = n := by
  have admits := formed.shape
  have fixes := (formed.fixed n fixed).2
  simp only [shape, Shape.Admits, List.mem_cons, List.not_mem_nil, or_false] at admits fixes
  have small : n < 1 <<< 16 := (le_maxOfWidth_iff (by decide)).mp fixes.1
  have bound : 1 <<< 16 = 65536 := rfl
  obtain ⟨width | width | width, -⟩ := admits
  · have even := fixes.2 width
    have byte : 1 <<< 8 = 256 := rfl
    simp only [width, beq_self_eq_true, if_true, byte, Nat.shiftRight_eq_div_pow, Nat.shiftLeft_eq]
    omega
  · simp only [width]
    exact Nat.mod_eq_of_lt small
  · simp only [width]
    exact Nat.mod_eq_of_lt (Nat.lt_trans small (by decide))

variable (bits) in
theorem decodeImplied_parses {parsed : Parsed} (goodField : GoodField model good s record field)
    (wide : field.isPacked = false) (implied : field.isStored = false)
    (header : field.shape ≠ .payload)
    (counted : ∀ index, field.repetition = .fieldRef index →
      parsed.record.countAt s index = .ok (record.repeats s field)) :
    Parses (decodeImplied s parsed field) (fieldBits bits s record field) parsed := by
  have formed := goodField.formed
  unfold decodeImplied
  split
  · next shape =>
    have whole := formed.whole wide (by simp [shape])
    have fits := goodField.padding shape
    simp only [fieldBits, shape]
    split
    · next index repetition =>
      simp only [paddingFits, repetition, decide_eq_true_eq] at fits
      refine (parses_check (counted index repetition)).after ?_
      refine (parses_check (Size.mul_eq_ok.mpr ⟨rfl, fits⟩)).after ?_
      refine (parses_skip ?_).return fun _ => parsed
      rw [List.length_replicate, Nat.mul_left_comm, whole]
    · next other =>
      have sized := (wireBits?_padding s record shape other).mpr ⟨rfl, fits⟩
      refine (parses_check sized).after ?_
      refine (parses_skip ?_).return fun _ => parsed
      rw [List.length_replicate, Option.getD_some, ← whole, Nat.mul_left_comm,
        Nat.mul_div_cancel_left _ (by decide)]
  · next code shape =>
    have admits := formed.shape
    simp only [shape, Shape.Admits] at admits
    simp only [fieldBits, shape]
    refine (parses_skip ?_).return fun _ => parsed
    rw [List.length_replicate]
    omega
  · next shape => exact absurd shape header
  · next n shape fixed =>
    have whole := formed.whole wide (by simp [shape])
    simp only [fieldBits, shape, fixed, fixedBits, true_and]
    rw [← List.append_nil (bitsOfNat _ _)]
    refine (parses_unsigned whole _).bind ((parses_checkFixed ?_).after (parses_pure parsed))
    exact fixed_descriptor formed shape fixed
  · next n shape fixed =>
    have whole := formed.whole wide (by simp [shape, Shape.isScalar])
    have fixes := (formed.fixed n fixed).2
    have admits := formed.shape
    simp only [shape, Shape.Admits] at fixes admits
    have narrow : field.width ≤ 64 := by grind
    simp only [fieldBits, shape, fixed, fixedBits, reduceCtorEq, false_and, if_false]
    rw [← List.append_nil (bitsOfNat _ _)]
    refine (parses_unsigned whole _).bind ((parses_checkFixed ?_).after (parses_pure parsed))
    exact Nat.mod_eq_of_lt ((le_maxOfWidth_iff narrow).mp fixes)
  · next padding parity payload descriptor scalar =>
    -- what is neither of these is stored, since outside chunks nothing else is fixed
    exfalso
    have admits := formed.shape
    cases fixed : field.fixed with
    | none => cases shape : field.shape <;> simp_all [Field.isStored, Shape.isParity]
    | some n =>
      have fixes := (formed.fixed n fixed).2
      cases shape : field.shape <;> simp_all [Shape.Admits, Field.isPacked]
      omega

/-- The value that a packed field holds is a number of its kind. -/
theorem packed_value (goodField : GoodField model good s record field)
    (packed : field.isPacked = true) (free : field.fixed = none) :
    (field.shape = .bitfield ∧ ∃ n, record.lookup field.id = some (.unsigned n) ∧
      (field.seq = true ∨ n < 1 <<< field.width)) ∨
    ∃ typeId v, field.shape = .enum typeId ∧ record.lookup field.id = some (.enum v) ∧
      field.seq = false ∧ v.toNat < 1 <<< field.width ∧
      elementTyped model field (.enum v) = true := by
  obtain ⟨-, single, shape⟩ := goodField.formed.packed packed
  have stored := goodField.formed.stored_of_packed packed free
  obtain ⟨value, found, goodValue, -⟩ := goodField.stored stored
  have typed := goodValue.typed
  have fits := goodValue.fits value (by simp [Field.elements_single single])
  simp only [fieldTyped, single] at typed
  rcases shape with shape | ⟨typeId, shape⟩
  · refine .inl ⟨shape, ?_⟩
    cases value <;> cases seq : field.seq <;> simp_all [elementTyped, elementFits]
  · have plain : field.seq = false := by
      cases seq : field.seq with
      | false => rfl
      | true => simpa [shape, Shape.isScalar] using (goodField.formed.seq seq).1
    refine .inr ⟨typeId, ?_⟩
    cases value <;> simp_all [elementTyped, elementFits]

variable (bits) in
theorem packs_of_good (goodField : GoodField model good s record field)
    (packed : field.isPacked = true) : Packs bits good s record field := by
  have formed := goodField.formed
  cases fixed : field.fixed with
  | some n => exact packs_fixed formed packed fixed
  | none =>
    rcases packed_value goodField packed fixed with
      ⟨-, n, found, inside⟩ | ⟨typeId, v, -, found, -, inside, -⟩
    · exact packs_unsigned formed packed fixed found inside
    · exact packs_enum formed packed fixed found inside

/-- Reading a packed field's number stores its value, in normal form. -/
theorem decodePacked_parses {target : Record} {parsed : Parsed} {word : Nat} {place : Packed Field}
    (goodField : GoodField model good s record place.symbol)
    (packed : place.symbol.isPacked = true)
    (normalized : ∀ value, record.lookup place.symbol.id = some value →
      target.lookup place.symbol.id = some (normalField model normal place.symbol value))
    (number : word >>> place.shift % 1 <<< place.width = packedNumber record place.symbol) :
    Parses (decodePacked model s word parsed place) [] (parsed.hold target place.symbol) := by
  obtain ⟨-, single, shape⟩ := goodField.formed.packed packed
  unfold decodePacked
  simp only [number]
  split
  · next n fixed =>
    rw [Parsed.hold_implied (by simp [Field.isStored, fixed])]
    refine (parses_checkFixed ?_).after (parses_pure parsed)
    simp [packedNumber, fixed]
  · next typeId free shape =>
    rcases packed_value goodField packed free with
      ⟨bitfield, -⟩ | ⟨_, v, enum, found, plain, -, typed⟩
    · simp [shape] at bitfield
    · obtain ⟨e, known, same⟩ := normalElement_enum normal goodField.resolved shape plain typed
      have held := normalized _ found
      simp only [normalField, single, same] at held
      rw [Parsed.hold_stored (goodField.formed.stored_of_packed packed free) held,
        packedNumber_enum free found]
      exact (parses_check known).after (parses_pure _)
  · next free other =>
    rcases packed_value goodField packed free with ⟨bitfield, n, found, -⟩ | ⟨typeId, _, enum, -⟩
    · have held := normalized _ found
      simp only [normalField, single, normalElement, bitfield] at held
      rw [Parsed.hold_stored (goodField.formed.stored_of_packed packed free) held,
        packedNumber_unsigned free found]
      exact parses_pure _
    · exact absurd enum (other typeId)

/-- Reading a chunk stores the values of its fields. -/
theorem decodeChunk_parses {target : Record} {parsed : Parsed} {fields : List Field}
    (goodFields : ∀ field ∈ fields, GoodField model good s record field)
    (packed : ∀ field ∈ fields, field.isPacked = true) (whole : totalWidth fields % 8 = 0)
    (normalized : ∀ field ∈ fields, ∀ value, record.lookup field.id = some value →
      target.lookup field.id = some (normalField model normal field value)) :
    Parses (decodeChunk model s parsed
        ⟨totalWidth fields, BitWindow.place (totalWidth fields) (widthsOf fields)⟩)
      (fields.flatMap (fieldBits bits s record)) (fields.foldl (Parsed.hold target) parsed) := by
  have packs (field : Field) (member : field ∈ fields) : Packs bits good s record field :=
    packs_of_good bits (goodFields field member) (packed field member)
  have bound (field : Field) (member : field ∈ fields) := (packs field member).bound
  obtain ⟨word, small, -, wordBits⟩ := BitWindow.place_join fields (packedNumber record) bound
  have numbers := BitWindow.place_read bound wordBits
  have symbols := BitWindow.place_symbols (totalWidth fields) fields
  have same : bitsOfNat (totalWidth fields) word = fields.flatMap (fieldBits bits s record) := by
    rw [wordBits, List.flatMap_def, List.flatMap_def,
      List.map_congr_left fun field member => (packs field member).bits]
  have word_parses := parses_unsigned (Nat.mul_div_cancel' (Nat.dvd_of_mod_eq_zero whole)) word
  rw [Nat.mod_eq_of_lt small, same] at word_parses
  have each : ∀ place ∈ BitWindow.place (totalWidth fields) (widthsOf fields), ∀ parsed,
      Parses (decodePacked model s word parsed place) [] (parsed.hold target place.symbol) := by
    intro place member parsed
    have inside : place.symbol ∈ fields := symbols ▸ List.mem_map_of_mem member
    exact decodePacked_parses (goodFields _ inside) (packed _ inside) (normalized _ inside)
      (numbers place member)
  have held := parses_foldlM each parsed
  rw [← List.foldl_map (f := Packed.symbol), symbols] at held
  rw [← List.append_nil (fields.flatMap _)]
  exact word_parses.bind held

/-- A field whose elements are counted shares no chunk. -/
theorem Segment.Sound.alone {segment : Segment} {index : Nat} (sound : segment.Sound)
    (formed : ∀ field ∈ segment.fields, field.WellFormed) (member : field ∈ segment.fields)
    (repetition : field.repetition = .fieldRef index) : segment.fields = [field] := by
  cases segment with
  | aligned only => rw [List.mem_singleton.mp member, Segment.fields]
  | chunk shared =>
    have single := formed field member
    obtain ⟨fields, -, rfl, -, packed⟩ := sound
    rw [Segment.fields, BitWindow.place_symbols] at member
    simp [(single.packed (packed field member)).2.1] at repetition

theorem decodeSegment_parses {target : Record} {parsed : Parsed} {segment : Segment}
    (parts : DecodesNested model nested bits normal good)
    (goodFields : ∀ field ∈ segment.fields, GoodField model good s record field)
    (sound : segment.Sound) (header : ∀ field ∈ segment.fields, field.shape ≠ .payload)
    (normalized : ∀ field ∈ segment.fields, ∀ value, record.lookup field.id = some value →
      target.lookup field.id = some (normalField model normal field value))
    (counted : ∀ field ∈ segment.fields, ∀ index, field.repetition = .fieldRef index →
      parsed.record.countAt s index = .ok (record.repeats s field)) :
    Parses (decodeSegment model nested s parsed segment)
      (segment.fields.flatMap (fieldBits bits s record))
      (segment.fields.foldl (Parsed.hold target) parsed) := by
  cases segment with
  | chunk shared =>
    obtain ⟨fields, -, rfl, whole, packed⟩ := sound
    rw [Segment.fields, BitWindow.place_symbols] at goodFields normalized ⊢
    exact decodeChunk_parses goodFields packed whole normalized
  | aligned field =>
    have goodField := goodFields field (.head _)
    have counted := counted field (.head _)
    simp only [Segment.fields, List.flatMap_singleton, List.foldl_cons, List.foldl_nil,
      decodeSegment]
    split
    · next stored =>
      obtain ⟨value, found, goodValue, count⟩ := goodField.stored stored
      rw [fieldBits_stored stored, Record.elements_of_lookup found,
        Parsed.hold_stored stored (normalized field (.head _) value found)]
      refine (decodeStored_parses parts goodField.formed goodField.resolved sound stored goodValue
        fun index repetition => ?_).return (parsed.store field)
      rw [counted index repetition, count index repetition]
    · next implied =>
      rw [Parsed.hold_implied (eq_false_of_ne_true implied)]
      exact decodeImplied_parses bits goodField sound (eq_false_of_ne_true implied)
        (header field (.head _)) counted

end Codec

end PacketSpec
