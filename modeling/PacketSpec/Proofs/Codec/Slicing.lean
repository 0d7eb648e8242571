import PacketSpec.Proofs.Builder.Change
import PacketSpec.Proofs.Codec.Format
import PacketSpec.Proofs.Keyed
import PacketSpec.Proofs.Wire.Range
import PacketSpec.Wire.Error

/-!
Structures of known size as ranges of bits: the range of each field begins where that of the field
before it ends. A fixed field has to hold its value, and a stored one is the number in its range.
-/
namespace PacketSpec

open Wire

/-- The number that is found in a range of bits, given its first bit and its width. -/
abbrev View := Nat → Nat → Nat

structure FixedPlace where
  packet : String
  field : Field
  expected : Nat
  start : Nat

namespace FixedPlace

/-- The number that stands for the field's value: an 8-bit descriptor is the upper byte of its
code. -/
def actual (view : View) (place : FixedPlace) : Nat :=
  let number := view place.start place.field.width
  if place.field.shape == .descriptor && place.field.width == 8 then number <<< 8 else number

def mismatch? (view : View) (place : FixedPlace) : Option DecodeError :=
  if place.actual view == place.expected then none
  else some (.invalidFixedValue place.packet place.field.id place.expected (place.actual view))

end FixedPlace

/-- How a structure whose first bit is given is cut into ranges. -/
structure Slicing where
  /-- Bits of the structure. -/
  extent : Nat
  /-- The fixed fields in the order of declaration, those of nested structures included. -/
  fixed : (start : Nat) → List FixedPlace
  value : View → (start : Nat) → Value

namespace Slicing

def bytesIn (view : View) (start count : Nat) : Bytes :=
  (List.range count).map fun index => UInt8.ofNat (view (start + 8 * index) 8)

section Fields

variable (model : Model) (nested : String → Slicing)

def elementExtent (field : Field) : Nat :=
  match field.shape with
  | .struct typeId => (nested typeId).extent
  | .parity code => code.parityBits
  | _ => field.width

def fieldExtent (field : Field) : Nat :=
  field.repetition.constantCount * elementExtent nested field

def extentOf : List Field → Nat
  | [] => 0
  | field :: rest => fieldExtent nested field + extentOf rest

def placed : List Field → Nat → List (Field × Nat)
  | [], _ => []
  | field :: rest, start => (field, start) :: placed rest (start + fieldExtent nested field)

def elementIn (view : View) (field : Field) (start : Nat) : Value :=
  let number := view start field.width
  match field.shape with
  | .scalar true =>
    if field.seq then .unsigned number else .signed (toSigned field.width number)
  | .rational => .rational ⟨toSigned 32 (view start 32), toSigned 32 (view (start + 32) 32)⟩
  | .bytes => .bytes (bytesIn view start (field.width / 8))
  | .string capacity => .text capacity (.ofBytes capacity (bytesIn view start capacity))
  | .struct typeId => (nested typeId).value view start
  | .enum typeId => .enum (((model.enum? typeId).map (·.ofNat number)).getD (.unknown number))
  | .descriptor => .descriptor (if field.width == 8 then number <<< 8 ||| lsbFlag else number)
  | _ => .unsigned number

def fieldIn (view : View) (field : Field) (start : Nat) : Value :=
  match field.repetition with
  | .constant count =>
    if field.isByteBuffer then .bytes (bytesIn view start count)
    else .list ((List.range count).map fun index =>
      elementIn model nested view field (start + index * elementExtent nested field))
  | _ => elementIn model nested view field start

def elementFixed (field : Field) (start : Nat) : List FixedPlace :=
  match field.shape with
  | .struct typeId => (nested typeId).fixed start
  | _ => []

def elementsFixed (field : Field) (start : Nat) : List FixedPlace :=
  (List.range field.repetition.constantCount).flatMap fun index =>
    elementFixed nested field (start + index * elementExtent nested field)

def fixedIn (s : Struct) (field : Field) (start : Nat) : List FixedPlace :=
  match field.fixed with
  | some expected => [⟨s.id, field, expected, start⟩]
  | none => elementsFixed nested field start

def fixedAt (s : Struct) (places : List (Field × Nat)) : List FixedPlace :=
  places.flatMap fun (field, start) => fixedIn nested s field start

def ofStruct (s : Struct) : Slicing where
  extent := extentOf nested s.fields
  fixed start := fixedAt nested s (placed nested s.fields start)
  value view start := .record (s.storedFields.map fun field =>
    (field.id, fieldIn model nested view field
      (((placed nested s.fields start).lookup field).getD start)))

end Fields

def mismatch? (slicing : Slicing) (view : View) (start : Nat) : Option DecodeError :=
  (slicing.fixed start).findSome? (·.mismatch? view)

end Slicing

def Field.isStatic (nested : String → Bool) (field : Field) : Bool :=
  match field.shape, field.repetition with
  | .payload, _ | _, .fieldRef _ => false
  | .struct typeId, _ => nested typeId
  | _, _ => true

namespace Model

/-- Whether a structure has neither payload nor counted elements, nested structures included. -/
def isStatic (model : Model) (id : String) : Bool :=
  meaningOr false (fun nested s => s.fields.all (·.isStatic nested)) model.structs.reverse id

def slicing (model : Model) (id : String) : Slicing :=
  meaningOr ⟨0, fun _ => [], fun _ _ => .record []⟩ (Slicing.ofStruct model) model.structs.reverse
    id

end Model

namespace Slicing

variable {nested : String → Slicing}

theorem elementsFixed_flat {field : Field} {start : Nat} (flat : field.shape.isStruct = false) :
    elementsFixed nested field start = [] := by
  cases shape : field.shape <;>
    simp [shape, Shape.isStruct, elementsFixed, elementFixed] at flat ⊢

theorem elementsFixed_single {field : Field} {start : Nat} (single : field.repetition = .none) :
    elementsFixed nested field start = elementFixed nested field start := by
  simp [elementsFixed, single, Repetition.constantCount, List.range_succ]

theorem extentOf_append (front back : List Field) :
    extentOf nested (front ++ back) = extentOf nested front + extentOf nested back := by
  induction front with
  | nil => simp [extentOf]
  | cons field front ih => simp [extentOf, ih, Nat.add_assoc]

theorem placed_append (front back : List Field) (start : Nat) :
    placed nested (front ++ back) start =
      placed nested front start ++ placed nested back (start + extentOf nested front) := by
  induction front generalizing start with
  | nil => simp [placed, extentOf]
  | cons field front ih => simp [placed, extentOf, ih, Nat.add_assoc]

theorem placed_fields (fields : List Field) (start : Nat) :
    (placed nested fields start).map Prod.fst = fields := by
  induction fields generalizing start with
  | nil => rfl
  | cons field rest ih => rw [placed, List.map_cons, ih]

/-- A field of a structure is found at its own place. -/
theorem lookup_placed {fields : List Field} {start : Nat} {place : Field × Nat}
    (distinct : (fields.map Field.id).Nodup) (member : place ∈ placed nested fields start) :
    (placed nested fields start).lookup place.1 = some place.2 :=
  lookup_of_nodup (by rw [placed_fields]; exact distinct.of_map) member

end Slicing

end PacketSpec
