import PacketSpec.Proofs.Codec.Encoding
import PacketSpec.Proofs.Reached

/-! The part of a structure's size that is the same for all values: it fills whole bytes, segment by
segment. -/
namespace PacketSpec

namespace Field

variable {field : Field}

theorem WellFormed.width_whole (formed : field.WellFormed) (wide : field.isPacked = false)
    (flat : field.shape.isStruct = false) (sized : field.shape.isParity = false)
    (header : field.shape ≠ .payload) : field.width % 8 = 0 := by
  have admits := formed.shape
  unfold Shape.Admits at admits
  unfold Field.isPacked at wide
  split at admits <;> grind [Shape.isStruct, Shape.isParity, Shape.isEnum]

/-- The bits that are known of a field in advance fill bytes, unless the field shares a chunk. -/
theorem WellFormed.staticBits_whole (formed : field.WellFormed) (wide : field.isPacked = false) :
    field.staticBits % 8 = 0 := by
  have whole (flat : ∀ typeId, field.shape ≠ .struct typeId)
      (sized : ∀ code, field.shape ≠ .parity code) (header : field.shape ≠ .payload) :
      field.width % 8 = 0 := by
    apply formed.width_whole wide _ _ header <;>
      cases shape : field.shape <;> simp_all [Shape.isStruct, Shape.isParity]
  unfold staticBits
  split
  · rfl
  · rfl
  · rfl
  · next shape _ =>
    have admits := formed.shape
    rw [shape] at admits
    exact admits.2.1
  · next header flat sized => rw [Nat.mul_mod, whole flat sized header, Nat.zero_mul, Nat.zero_mod]
  · next header flat sized => exact whole flat sized header

theorem WellFormed.staticBits_packed (formed : field.WellFormed) (packed : field.isPacked = true) :
    field.staticBits = field.width := by
  obtain ⟨-, single, shape⟩ := formed.packed packed
  rcases shape with shape | ⟨typeId, shape⟩ <;> simp [staticBits, shape, single]

/-- A field that is not stored is payload, padding, a parity or a fixed number. -/
theorem WellFormed.implied_cases (formed : field.WellFormed) (wide : field.isPacked = false)
    (implied : field.isStored = false) :
    field.shape = .payload ∨ field.shape = .padding ∨ (∃ code, field.shape = .parity code) ∨
      ∃ n, field.fixed = some n ∧ field.repetition = .none ∧
        (field.shape.isScalar = true ∨ field.shape = .descriptor) := by
  have fixes := formed.fixed
  have admits := formed.shape
  cases shape : field.shape <;> cases value : field.fixed <;>
    simp_all [Field.isStored, Shape.isParity, Shape.isScalar, Field.Fixes]
  simp_all [Field.isPacked, Shape.Admits]
  omega

theorem wireBits?_static (measured : field.Measured) (flat : field.shape.isStruct = false)
    (header : field.shape ≠ .payload) (known : ∀ index, field.repetition ≠ .fieldRef index) :
    field.wireBits? = .ok (some field.staticBits) := by
  have difference (code : LdpcCode) (shape : field.shape = .parity code) :
      Size.sub code.codeBits code.messageBits = .ok code.parityBits :=
    Size.sub_eq_ok.mpr ⟨rfl, measured.parity code shape⟩
  cases repetition : field.repetition with
  | none =>
    cases shape : field.shape <;>
      simp_all [wireBits?, staticBits, Shape.isStruct, Functor.map, Except.map]
  | constant count =>
    have small : field.shape.isParity = false → Size.mul field.width count = .ok _ := fun plain =>
      Size.check_of_lt (by simpa [repetition, Repetition.constantCount] using measured.bits plain)
    cases shape : field.shape <;>
      simp_all [wireBits?, staticBits, Shape.isStruct, Shape.isParity, Functor.map, Except.map]
  | fieldRef index => exact absurd repetition (known index)

theorem wireBits?_counted {index : Nat} (counted : field.repetition = .fieldRef index) :
    field.wireBits? = .ok none := by
  cases shape : field.shape <;> simp [wireBits?, shape, counted]

end Field

namespace Codec

theorem staticBitsOf_append (front back : List Field) :
    staticBitsOf (front ++ back) = staticBitsOf front + staticBitsOf back := by
  induction front with
  | nil => simp [staticBitsOf]
  | cons field front ih => simp [staticBitsOf, ih, Nat.add_assoc]

theorem staticBits_le_of_mem {field : Field} {fields : List Field} (member : field ∈ fields) :
    field.staticBits ≤ staticBitsOf fields := by
  obtain ⟨front, back, rfl⟩ := List.append_of_mem member
  rw [staticBitsOf_append, staticBitsOf]
  omega

theorem staticBitsOf_segment_le {segments : List Segment} {segment : Segment}
    (member : segment ∈ segments) :
    staticBitsOf segment.fields ≤ staticBitsOf (segments.flatMap Segment.fields) := by
  obtain ⟨front, back, rfl⟩ := List.append_of_mem member
  rw [List.flatMap_append, List.flatMap_cons, staticBitsOf_append, staticBitsOf_append]
  omega

theorem staticBitsOf_packed {fields : List Field} (formed : ∀ field ∈ fields, field.WellFormed)
    (packed : ∀ field ∈ fields, field.isPacked = true) :
    staticBitsOf fields = totalWidth fields := by
  induction fields with
  | nil => rfl
  | cons field rest ih =>
    have others := ih (fun other member => formed other (.tail _ member))
      fun other member => packed other (.tail _ member)
    rw [staticBitsOf, totalWidth, others,
      (formed field (.head _)).staticBits_packed (packed field (.head _))]

/-- The bits that are known of a segment in advance fill bytes. -/
theorem Segment.Sound.staticBits_whole {segment : Segment} (sound : segment.Sound)
    (formed : ∀ field ∈ segment.fields, field.WellFormed) :
    staticBitsOf segment.fields % 8 = 0 := by
  cases segment with
  | chunk shared =>
    obtain ⟨fields, -, rfl, whole, packed⟩ := sound
    rw [Segment.fields, BitWindow.place_symbols] at formed ⊢
    rwa [staticBitsOf_packed formed packed]
  | aligned field => exact (formed field (.head _)).staticBits_whole sound

/-- The fields of a structure that has a layout fill whole bytes. -/
theorem staticBitsOf_whole {window : Nat} {s : Struct} {segments : List Segment}
    (laid : layout window s = .ok segments) (formed : ∀ field ∈ s.fields, field.WellFormed) :
    staticBitsOf s.fields % 8 = 0 := by
  obtain ⟨whole, sound⟩ := layout_fields laid
  rw [← whole] at formed ⊢
  clear whole laid
  induction segments with
  | nil => rfl
  | cons segment rest ih =>
    rw [List.flatMap_cons] at formed ⊢
    have first := (sound segment (.head _)).staticBits_whole fun field member =>
      formed field (List.mem_append_left _ member)
    have others := ih (fun field member => formed field (List.mem_append_right _ member))
      fun other member => sound other (.tail _ member)
    rw [staticBitsOf_append]
    omega

end Codec

end PacketSpec
