import Mathlib.Data.List.Induction
import PacketSpec.Proofs.EncodedLength

/-! The bits that rows declare against those that their fields take. -/
namespace PacketSpec

open Wire Encode Format

/-- Whether a field may take other bytes than its row declares: payload is written after its
structure, and nested structures and counted arrays have the size of their values. -/
def Field.isOpen (field : Field) : Bool := field.varies || field.shape == .payload

theorem declaredSinceParity_of_parity {front : List Field}
    (starts : ∀ last ∈ front.getLast?, last.shape.isParity = true) :
    declaredSinceParity front = 0 := by
  rcases List.eq_nil_or_concat front with rfl | ⟨before, last, rfl⟩
  · rfl
  · rw [List.concat_eq_append] at starts ⊢
    rw [declaredSinceParity_concat, if_pos (starts last (by simp))]

/-- Only the rows since the last parity count. -/
theorem declaredSinceParity_append {front fields : List Field}
    (starts : ∀ last ∈ front.getLast?, last.shape.isParity = true) :
    declaredSinceParity (front ++ fields) = declaredSinceParity fields := by
  rw [declaredSinceParity, List.foldl_append, ← declaredSinceParity,
    declaredSinceParity_of_parity starts, declaredSinceParity]

theorem declaredSinceParity_cons {field : Field} {fields : List Field}
    (plain : ∀ other ∈ field :: fields, other.shape.isParity = false) :
    declaredSinceParity (field :: fields) =
      field.width * field.repetition.constantCount + declaredSinceParity fields := by
  induction fields using List.reverseRecOn with
  | nil => simp [declaredSinceParity, plain field (.head _)]
  | append_singleton fields last ih =>
    have ih := ih fun other member => plain other (List.mem_append_left [last] member)
    have own : last.shape.isParity = false := plain last (by simp)
    rw [← List.cons_append, declaredSinceParity_concat, declaredSinceParity_concat, ih, own]
    simp [Nat.add_assoc]

namespace Codec

variable {model : Model} {encoders : String → Option Encoder} {measures : String → Option Measure}
  {bits : String → Value → List Bool} {typed : String → Value → Bool} {s : Struct}
  {record : Record} {field : Field}

theorem TypedField.length_closed
    (typedField : TypedField model encoders measures bits typed s record field)
    (closed : field.isOpen = false) (plain : field.shape.isParity = false) :
    (fieldBits bits s record field).length = field.width * field.repetition.constantCount := by
  obtain ⟨fixed, header⟩ : field.varies = false ∧ field.shape ≠ .payload := by
    simpa [Field.isOpen] using closed
  rw [typedField.length_fixed fixed]
  cases shape : field.shape <;> cases repetition : field.repetition <;>
    simp_all [Field.staticBits, Field.varies, Shape.isParity, Repetition.constantCount]

/-- Closed fields have at least the bits that are declared since the last parity among them. -/
theorem declaredSinceParity_le {fields : List Field}
    (typedFields : ∀ field ∈ fields, TypedField model encoders measures bits typed s record field)
    (closed : ∀ field ∈ fields, field.isOpen = false) :
    declaredSinceParity fields ≤ (fields.flatMap (fieldBits bits s record)).length := by
  induction fields using List.reverseRecOn with
  | nil => exact Nat.zero_le _
  | append_singleton fields last ih =>
    have others := ih (fun other member => typedFields other (List.mem_append_left _ member))
      fun other member => closed other (List.mem_append_left _ member)
    have member : last ∈ fields ++ [last] := by simp
    rw [declaredSinceParity_concat, List.flatMap_append, List.length_append,
      List.flatMap_singleton]
    by_cases parity : last.shape.isParity = true
    · rw [if_pos parity]
      omega
    · rw [if_neg parity,
        (typedFields last member).length_closed (closed last member) (by simpa using parity)]
      omega

/-- The bits of fields without a parity differ from what is declared by as much as those of the open
ones do. -/
theorem length_declared {fields : List Field}
    (typedFields : ∀ field ∈ fields, TypedField model encoders measures bits typed s record field)
    (plain : ∀ field ∈ fields, field.shape.isParity = false) :
    (fields.flatMap (fieldBits bits s record)).length +
        declaredSinceParity (fields.filter Field.isOpen) =
      declaredSinceParity fields +
        ((fields.filter Field.isOpen).flatMap (fieldBits bits s record)).length := by
  induction fields with
  | nil => rfl
  | cons field rest ih =>
    have others := ih (fun other member => typedFields other (.tail _ member))
      fun other member => plain other (.tail _ member)
    rw [List.flatMap_cons, List.length_append, declaredSinceParity_cons plain]
    cases isOpen : field.isOpen with
    | true =>
      have among : ∀ other ∈ field :: rest.filter Field.isOpen, other.shape.isParity = false := by
        intro other member
        exact plain other (by simp at member ⊢; tauto)
      rw [List.filter_cons_of_pos isOpen, declaredSinceParity_cons among, List.flatMap_cons,
        List.length_append]
      omega
    | false =>
      have own := (typedFields field (.head _)).length_closed isOpen (plain field (.head _))
      rw [List.filter_cons_of_neg (by simp [isOpen])]
      omega

end Codec

end PacketSpec
