import PacketSpec.Proofs.Codec.Consumption
import PacketSpec.Proofs.Codec.Decoding

/-!
Which bits of a structure its values hold, so that they come back when a value is read and written
again: not those of padding and parity, nor the upper half of a 32-bit descriptor. What reading a
field takes is compared with what its value is written as.
-/
namespace PacketSpec

open Wire Decode

namespace Format

/-- Which bits of an element a value holds: of a 32-bit descriptor only those of its 16-bit code. -/
def elementKept (nested : String → Value → List Bool) (field : Field) (value : Value) : List Bool :=
  match field.shape with
  | .struct typeId => nested typeId value
  | .descriptor =>
    if field.width = 32 then List.replicate 16 false ++ List.replicate 16 true
    else List.replicate field.width true
  | _ => allKept (elementBits (fun _ _ => []) field value)

/-- Which bits of a field come back when it is read and written again: none of padding and
parity. -/
def fieldKept (nested : String → Value → List Bool) (s : Struct) (record : Record)
    (field : Field) : List Bool :=
  match field.shape, field.fixed with
  | .payload, _ => []
  | .padding, _ => List.replicate (record.repeats s field * field.width) false
  | .parity code, _ => List.replicate code.parityBits false
  | _, some value => allKept (fixedBits field value)
  | _, none => (record.elements field).flatMap (elementKept nested field)

theorem fieldKept_stored {nested : String → Value → List Bool} {s : Struct} {record : Record}
    {field : Field} (stored : field.isStored = true) :
    fieldKept nested s record field =
      (record.elements field).flatMap (elementKept nested field) := by
  unfold fieldKept
  split <;> simp_all [Field.isStored, Shape.isParity]

def structKept (nested : String → Value → List Bool) (s : Struct) : Value → List Bool
  | .record record => s.fields.flatMap (fieldKept nested s record)
  | _ => []

end Format

def Model.keptBits (model : Model) (id : String) (value : Value) : List Bool :=
  meaningOr (fun _ => []) Format.structKept model.structs.reverse id value

theorem Enum.toNat_ofNat (e : Enum) (n : Nat) : (e.ofNat n).toNat = n := by
  unfold Enum.ofNat
  cases found : e.members.find? (·.value == n) with
  | none => rfl
  | some member => simpa [EnumValue.toNat] using List.find?_some found

namespace Codec

open Format

def TakesNested (model : Model) (nested : String → Option Decoder)
    (bits kept : String → Value → List Bool) : Prop :=
  ∀ id ∈ model.substructs, ∀ decoder, nested id = some decoder →
    Takes decoder fun result taken => Recodes (bits id result.1) (kept id result.1) taken

variable {model : Model} {nested : String → Option Decoder}
  {bits kept : String → Value → List Bool} {s : Struct} {record : Record} {field : Field}
  {value : Value}

theorem decodeElement_takes (parts : TakesNested model nested bits kept)
    (formed : field.WellFormed) (resolved : Resolved model field) (wide : field.isPacked = false) :
    Takes (decodeElement model nested field) fun value taken =>
      Recodes (elementBits bits field value) (elementKept kept field value) taken := by
  unfold decodeElement
  simp only
  split
  · next shape =>
    have whole := formed.whole wide (by simp [shape, Shape.isScalar])
    simp only [elementBits, elementKept, shape]
    exact (takes_signed whole).return Value.signed
  · next shape =>
    have whole := formed.whole wide (by simp [shape, Shape.isScalar])
    simp only [elementBits, elementKept, shape]
    exact (takes_unsigned whole).return Value.unsigned
  · next shape =>
    simp only [elementBits, elementKept, shape]
    exact takes_rational.return Value.rational
  · next typeId shape =>
    simp only [elementBits, elementKept, shape]
    split
    · next decoder known =>
      rw [← bind_pure_comp]
      exact (parts typeId (resolved.structs typeId shape) decoder known).return Prod.fst
    · exact takes_fault
  · next typeId shape =>
    have whole := formed.whole wide (by simp [shape, Shape.isEnum])
    refine takes_after takes_check fun e _ => ?_
    simp only [elementBits, elementKept, shape]
    refine Takes.return (fun n => Value.enum (e.ofNat n)) ?_
    simpa only [elementBits, shape, Enum.toNat_ofNat] using takes_unsigned whole
  · exact takes_fault

def RecodesValue (bits kept : String → Value → List Bool) (field : Field) (value : Value)
    (taken : Bytes) : Prop :=
  Recodes ((field.elements value).flatMap (elementBits bits field))
    ((field.elements value).flatMap (elementKept kept field)) taken

theorem RecodesValue.single {taken : Bytes} (single : field.repetition = .none)
    (recodes : Recodes (elementBits bits field value) (elementKept kept field value) taken) :
    RecodesValue bits kept field value taken := by
  rwa [RecodesValue, Field.elements_single single, List.flatMap_singleton, List.flatMap_singleton]

theorem takes_list {step : Decode (List Value)} (several : field.repetition ≠ .none)
    (takes : Takes step fun elements taken =>
      Recodes (elements.flatMap (elementBits bits field))
        (elements.flatMap (elementKept kept field)) taken) :
    Takes (do return Value.list (← step)) (RecodesValue bits kept field) := by
  refine Takes.return Value.list (takes.mono fun elements taken recodes => ?_)
  rwa [RecodesValue, Field.elements_list several]

/-- A byte buffer is a single element, and all of it is kept. -/
theorem takes_buffer {step : Decode Bytes} (buffered : field.isByteBuffer = true)
    (takes : Takes step fun buffer taken =>
      Recodes (bitsOfBytes buffer) (allKept (bitsOfBytes buffer)) taken) :
    Takes (do return Value.bytes (← step)) (RecodesValue bits kept field) := by
  have shape : field.shape = .scalar false := by
    simp only [Field.isByteBuffer, Bool.and_eq_true, beq_iff_eq] at buffered
    exact buffered.1.1
  refine Takes.return Value.bytes (takes.mono fun buffer taken recodes => ?_)
  rw [RecodesValue, buffer_bits buffered]
  simpa [field.elements_lone, elementKept, elementBits, shape] using recodes

theorem decodeElements_takes (parts : TakesNested model nested bits kept)
    (formed : field.WellFormed) (resolved : Resolved model field) (wide : field.isPacked = false) :
    Takes (decodeElements model nested s record field) (RecodesValue bits kept field) := by
  have each := decodeElement_takes parts formed resolved wide
  unfold decodeElements
  simp only
  split
  · next single => exact each.mono fun value taken => .single single
  · next count repetition =>
    split
    · next buffered => exact takes_buffer buffered takes_array
    · exact takes_list (by simp [repetition]) (takes_times each count)
  · next index repetition =>
    refine takes_after takes_check fun count _ => ?_
    split
    · next buffered => exact takes_buffer buffered (takes_slice fun _ => .all_taken rfl)
    · split
      · exact takes_list (by simp [repetition]) (takes_upTo each count)
      · refine takes_after takes_remaining fun available _ => ?_
        exact takes_list (by simp [repetition]) (takes_times each _)

/-- The lower half of 32 bits. -/
theorem lower_half (n : Nat) :
    List.zipWith (· && ·) (List.replicate 16 false ++ List.replicate 16 true) (bitsOfNat 32 n) =
      bitsOfNat 32 (wireCode n) := by
  have upper : wireCode n >>> 16 = 0 := by
    rw [Nat.shiftRight_eq_div_pow]
    exact Nat.div_eq_of_lt (Nat.mod_lt n (by decide))
  have dropped := Recodes.zipWith_none (bitsOfNat 16 (n >>> 16))
  have all := Recodes.zipWith_all (bitsOfNat 16 n)
  rw [length_bitsOfNat] at dropped all
  rw [bitsOfNat_add 16 16 n, bitsOfNat_add 16 16 (wireCode n), upper, bitsOfNat_zero,
    List.zipWith_append (by simp), dropped, all, wireCode, bitsOfNat_mod]

/-- A descriptor is written as it was read, but without the upper half of a 32-bit one. -/
theorem descriptor_recodes {n : Nat} {taken : Bytes} (shape : field.shape = .descriptor)
    (width : field.width ∈ [8, 16, 32])
    (recodes : Recodes (bitsOfNat field.width n) (allKept (bitsOfNat field.width n)) taken) :
    let value := .descriptor (if field.width == 8 then n <<< 8 ||| lsbFlag else n)
    Recodes (elementBits bits field value) (elementKept kept field value) taken := by
  simp only [elementBits, elementKept, shape, descriptorNumber]
  simp only [List.mem_cons, List.not_mem_nil, or_false] at width
  rcases width with width | width | width
  · -- the flag lies above the 16 bits that count
    have same : bitsOfNat 8 (wireCode (n <<< 8 ||| lsbFlag) >>> 8) = bitsOfNat 8 n := by
      apply bitsOfNat_congr
      intro i inside
      rw [wireCode, lsbFlag, Nat.one_shiftLeft, Nat.one_shiftLeft, Nat.testBit_shiftRight,
        Nat.testBit_mod_two_pow, Nat.testBit_or, Nat.testBit_shiftLeft, Nat.testBit_two_pow]
      have small : 8 + i < 16 := by omega
      have other : ¬31 = 8 + i := by omega
      simp [small, other]
    simp only [width, allKept, length_bitsOfNat] at recodes
    simpa [width, same] using recodes
  · have same : bitsOfNat 16 (wireCode n) = bitsOfNat 16 n := bitsOfNat_mod 16 n
    simp only [width, allKept, length_bitsOfNat] at recodes
    simpa [width, same] using recodes
  · rw [width] at recodes
    have masked := recodes.mask (List.replicate 16 false ++ List.replicate 16 true) (by simp)
    rw [lower_half] at masked
    simpa [width] using masked

theorem decodeStored_takes (parts : TakesNested model nested bits kept)
    (formed : field.WellFormed) (resolved : Resolved model field) (wide : field.isPacked = false) :
    Takes (decodeStored model nested s record field) (RecodesValue bits kept field) := by
  have admits := formed.shape
  unfold decodeStored
  simp only
  split
  · next shape =>
    split
    · next seq =>
      have whole := formed.whole wide (by simp [shape, Shape.isScalar])
      refine Takes.return Value.unsigned ((takes_unsigned whole).mono fun n taken recodes => ?_)
      refine .single (formed.seq seq).2 ?_
      simpa only [elementBits, elementKept, shape] using recodes
    · exact decodeElements_takes parts formed resolved wide
  · exact decodeElements_takes parts formed resolved wide
  · exact decodeElements_takes parts formed resolved wide
  · exact decodeElements_takes parts formed resolved wide
  · next shape =>
    rw [shape] at admits
    refine Takes.return Value.bytes (takes_array.mono fun bytes taken recodes => ?_)
    refine .single admits.2.2 ?_
    simpa only [elementBits, elementKept, shape] using recodes
  · next capacity shape =>
    rw [shape] at admits
    refine Takes.return (Value.text capacity) (takes_fixedText.mono fun text taken recodes => ?_)
    refine .single admits.2.2 ?_
    simpa only [elementBits, elementKept, shape] using recodes
  · next shape =>
    rw [shape] at admits
    have whole := formed.whole wide (by simp [shape])
    refine Takes.return (fun code => Value.descriptor _)
      ((takes_unsigned whole).mono fun n taken recodes => ?_)
    exact .single admits.2 (descriptor_recodes shape admits.1 recodes)
  · exact takes_fault

theorem takes_checkFixed {actual expected : Nat} :
    Takes (checkFixed s field actual expected) fun _ taken => taken = [] ∧ actual = expected := by
  unfold checkFixed
  split
  · next same => exact takes_pure ⟨rfl, beq_iff_eq.mp same⟩
  · exact takes_throw

variable (bits kept) in
/-- A field that is not stored leaves the record as it is. Of padding only as much is taken as its
count asks for. -/
theorem decodeImplied_takes {parsed : Parsed} (formed : field.WellFormed)
    (wide : field.isPacked = false) (header : field.shape ≠ .payload) :
    Takes (decodeImplied s parsed field) fun after taken => after = parsed ∧
      ∀ record : Record, (∀ index, field.repetition = .fieldRef index →
        record.countAt s index = parsed.record.countAt s index) →
        Recodes (fieldBits bits s record field) (fieldKept kept s record field) taken := by
  unfold decodeImplied
  split
  · next shape =>
    have whole := formed.whole wide (by simp [shape])
    split
    · next index repetition =>
      refine takes_after takes_check fun count known => ?_
      refine takes_after takes_check fun size sized => ?_
      refine Takes.return (fun _ => parsed) (takes_skip fun taken part => ⟨rfl, ?_⟩)
      intro record agrees
      simp only [fieldBits, fieldKept, shape, Record.repeats, repetition, agrees index repetition,
        known, Except.toOption, Option.getD_some]
      obtain ⟨rfl, -⟩ := Size.mul_eq_ok.mp sized
      refine .zeros (Nat.le_trans (Nat.mul_le_mul_left 8 part) (Nat.le_of_eq ?_))
      rw [Nat.mul_left_comm, whole]
    · next other =>
      refine takes_after takes_check fun size sized => ?_
      refine Takes.return (fun _ => parsed) (takes_skip fun taken part => ⟨rfl, ?_⟩)
      intro record _
      simp only [fieldBits, fieldKept, shape]
      rw [((wireBits?_padding s record shape other).mp sized).1, Option.getD_some] at part
      exact .zeros (by omega)
  · next code shape =>
    refine Takes.return (fun _ => parsed) (takes_skip fun taken part => ⟨rfl, ?_⟩)
    intro record agrees
    simp only [fieldBits, fieldKept, shape]
    exact .zeros (by omega)
  · next shape => exact absurd shape header
  · next n shape fixed =>
    have whole := formed.whole wide (by simp [shape])
    refine takes_bind (takes_unsigned whole) fun code taken recodes => ?_
    refine takes_after takes_checkFixed fun _ same => takes_pure ⟨rfl, fun record _ => ?_⟩
    rw [List.append_nil]
    have written : fixedBits field n = bitsOfNat field.width code := by
      rw [← same, fixedBits]
      by_cases narrow : field.width = 8
      · simp [shape, narrow, Nat.shiftLeft_shiftRight]
      · simp [narrow]
    simpa only [fieldBits, fieldKept, shape, fixed, written] using recodes
  · next n shape fixed =>
    have whole := formed.whole wide (by simp [shape, Shape.isScalar])
    refine takes_bind (takes_unsigned whole) fun number taken recodes => ?_
    refine takes_after takes_checkFixed fun _ same => takes_pure ⟨rfl, fun record _ => ?_⟩
    rw [List.append_nil]
    have written : fixedBits field n = bitsOfNat field.width number := by
      simp [fixedBits, shape, same]
    simpa only [fieldBits, fieldKept, shape, fixed, written] using recodes
  · exact takes_fault

end Codec

end PacketSpec
