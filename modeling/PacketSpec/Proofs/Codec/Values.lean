import PacketSpec.Proofs.Codec.Format

/-!
The values of a structure, and the normal form of a value: what is left of it on the wire. Sequence
numbers are held in 64 bits and enumerations may be given by number, so a value need not be normal.
-/
namespace PacketSpec

open Wire

namespace Format

/-- Whether a value has the type of the field's elements. Numbers have the width of the field, but
sequence numbers have 64 bits, bit fields 8, numbers of enumerations 64 and descriptors 32. -/
def elementTyped (model : Model) (field : Field) (value : Value) : Bool :=
  match field.seq, field.shape, value with
  | true, _, .unsigned n => n < Size.bound
  | false, .scalar false, .unsigned n => n < 1 <<< field.width
  | false, .scalar true, .signed n => FitsSigned field.width n
  | false, .bitfield, .unsigned n => n < 1 <<< 8
  | _, .rational, .rational value => FitsSigned 32 value.num && FitsSigned 32 value.den
  | _, .bytes, .bytes bytes => 8 * bytes.length == field.width
  | _, .string capacity, .text other _ => other == capacity
  | _, .enum typeId, .enum (.named member) =>
    (model.enum? typeId).any fun e => e.members.contains member
  | _, .enum _, .enum (.unknown n) => n < Size.bound
  | _, .descriptor, .descriptor code => code < 1 <<< 32
  | _, .struct _, .record _ => true
  | _, _, _ => false

/-- Several elements are a list, or a byte buffer if they are plain bytes. -/
def arrayTyped (model : Model) (field : Field) : Value → Bool
  | .bytes _ => field.isByteBuffer
  | .list elements => !field.isByteBuffer && elements.all (elementTyped model field)
  | _ => false

def fieldTyped (model : Model) (field : Field) (value : Value) : Bool :=
  match field.repetition with
  | .none => elementTyped model field value
  | .constant count => arrayTyped model field value && value.count == count
  | .fieldRef _ => arrayTyped model field value

/-- Whether a record has exactly the stored fields of the structure, each of its type. -/
def recordTyped (model : Model) (s : Struct) (record : Record) : Bool :=
  record.map Prod.fst == s.storedFields.map Field.id &&
  s.fields.all fun field =>
    !field.isStored || (record.lookup field.id).any (fieldTyped model field)

/-- Whether a sequence number that counts elements has no more bits than its field. -/
def countFits (record : Record) (count : Field) : Bool :=
  match count.seq, record.lookup count.id with
  | true, some (.unsigned n) => n < 1 <<< count.width
  | _, _ => true

def recordCounts (s : Struct) (record : Record) : Bool :=
  s.fields.all fun field =>
    match field.repetition with
    | .fieldRef index => s.fields[index]?.all (countFits record)
    | _ => true

def recordReadable (model : Model) (s : Struct) (record : Record) : Bool :=
  recordTyped model s record && (recordCounts s record && recordFits s record)

theorem everyRecord_and {first second : Struct → Record → Bool}
    {one other : String → Value → Bool} {s : Struct} {value : Value} :
    everyRecord (fun s record => first s record && second s record)
        (fun id value => one id value && other id value) s value =
      (everyRecord first one s value && everyRecord second other s value) := by
  cases value with
  | record record =>
    rw [Bool.eq_iff_iff]
    simp only [everyRecord, Bool.and_eq_true, List.all_eq_true]
    constructor
    · rintro ⟨⟨holds, also⟩, nested⟩
      refine ⟨⟨holds, fun field member => ?_⟩, ⟨also, fun field member => ?_⟩⟩ <;>
        have nested := nested field member <;> split <;> simp_all
    · rintro ⟨⟨holds, nested⟩, also, others⟩
      refine ⟨⟨holds, also⟩, fun field member => ?_⟩
      have nested := nested field member
      have others := others field member
      split <;> simp_all
  | _ => rfl

/-- Two checks of a value and of those nested in it can be made as one. -/
theorem meaningOr_everyRecord_and {first second : Struct → Record → Bool} (structs : List Struct) :
    meaningOr (fun _ => false) (everyRecord fun s record => first s record && second s record)
        structs =
      fun id value => meaningOr (fun _ => false) (everyRecord first) structs id value &&
        meaningOr (fun _ => false) (everyRecord second) structs id value := by
  induction structs with
  | nil => rfl
  | cons s earlier ih =>
    funext id value
    rw [meaningOr, meaningOr, meaningOr, ih]
    split
    · exact everyRecord_and
    · rfl

/-- Sequence numbers are reduced to their width, descriptors to their code with the flag of 8-bit
ones, and numbers of enumerations to the members that have them. -/
def normalElement (model : Model) (nested : String → Value → Value) (field : Field)
    (value : Value) : Value :=
  match field.shape, value with
  | .struct typeId, value => nested typeId value
  | .enum typeId, .enum (.unknown n) =>
    .enum (((model.enum? typeId).map fun e => e.ofNat n).getD (.unknown n))
  | .descriptor, .descriptor code =>
    .descriptor (if field.width = 8 then code &&& 0xff00 ||| lsbFlag else code &&& 0xffff)
  | _, .unsigned n => .unsigned (if field.seq then n % 1 <<< field.width else n)
  | _, value => value

def normalField (model : Model) (nested : String → Value → Value) (field : Field)
    (value : Value) : Value :=
  match field.repetition, value with
  | .none, value => normalElement model nested field value
  | _, .list elements => .list (elements.map (normalElement model nested field))
  | _, value => value

def normalEntry (model : Model) (nested : String → Value → Value) (s : Struct) (id : String)
    (value : Value) : Value :=
  match s.fields.find? (·.id == id) with
  | some field => normalField model nested field value
  | none => value

def normalRecord (model : Model) (nested : String → Value → Value) (s : Struct)
    (record : Record) : Record :=
  record.map fun entry => (entry.1, normalEntry model nested s entry.1 entry.2)

def normalStruct (model : Model) (nested : String → Value → Value) (s : Struct) : Value → Value
  | .record record => .record (normalRecord model nested s record)
  | value => value

end Format

namespace Model

def hasType (model : Model) : String → Value → Bool := model.everyRecord (Format.recordTyped model)

def countsFit (model : Model) : String → Value → Bool := model.everyRecord Format.recordCounts

def readable (model : Model) : String → Value → Bool :=
  model.everyRecord (Format.recordReadable model)

theorem readable_eq (model : Model) (id : String) (value : Value) :
    model.readable id value =
      (model.hasType id value && (model.countsFit id value && model.fits id value)) := by
  unfold readable everyRecord Format.recordReadable
  rw [Format.meaningOr_everyRecord_and, Format.meaningOr_everyRecord_and]
  rfl

def normal (model : Model) (id : String) (value : Value) : Value :=
  meaningOr (fun value => value) (Format.normalStruct model) model.structs.reverse id value

end Model

namespace Struct

/-- The bytes of the payload, if so many are available. The size of a constant number of elements
is computed in bits. -/
def payloadSize (s : Struct) (record : Record) (field : Field) (available : Nat) : Nat :=
  match field.repetition with
  | .none => available
  | .constant count => count * field.width / 8
  | .fieldRef _ => record.repeats s field * (field.width / 8)

def payloadSizeFits (s : Struct) (record : Record) (field : Field) : Bool :=
  match field.repetition with
  | .none => true
  | .constant count => count * field.width < Size.bound
  | .fieldRef _ => record.repeats s field * (field.width / 8) < Size.bound

def PayloadLast (s : Struct) : Prop :=
  ∀ field, s.payloadField? = some field → s.fields.getLast? = some field

def payloadOf (s : Struct) (record : Record) (rest : Bytes) : Option Bytes :=
  s.payloadField?.map fun field => rest.take (s.payloadSize record field rest.length)

end Struct

end PacketSpec
