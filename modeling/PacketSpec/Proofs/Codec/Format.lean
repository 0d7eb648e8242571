import PacketSpec.Codec.Value
import PacketSpec.Proofs.Model.WellFormed
import PacketSpec.Proofs.Wire.Bits

/-!
The wire format as bits: those of a structure are those of its fields one after the other, whatever
chunks the fields share. Beside it stand what a value of a structure is, and which values have an
encoding.
-/
namespace PacketSpec

open Wire

/-- Like `meaningIn?`, with a meaning for the names that no structure has. -/
def meaningOr {α : Type} (fallback : α) (meaning : (String → α) → Struct → α) :
    List Struct → String → α
  | [], _ => fallback
  | s :: earlier, id =>
    if s.id == id then meaning (meaningOr fallback meaning earlier) s
    else meaningOr fallback meaning earlier id

theorem meaningOr_append {α : Type} {fallback : α} {meaning : (String → α) → Struct → α}
    {front back : List Struct} {id : String} (fresh : ∀ s ∈ front, s.id ≠ id) :
    meaningOr fallback meaning (front ++ back) id = meaningOr fallback meaning back id := by
  induction front with
  | nil => rfl
  | cons s front ih =>
    have other : ¬(s.id == id) = true := by simpa using fresh s (.head _)
    rw [List.cons_append, meaningOr, if_neg other]
    exact ih fun s' member => fresh s' (.tail _ member)

theorem meaningIn?_eq_meaningOr {α : Type} (meaning : (String → Option α) → Struct → α)
    (structs : List Struct) :
    meaningIn? meaning structs =
      meaningOr none (fun nested s => some (meaning nested s)) structs := by
  induction structs with
  | nil => rfl
  | cons s earlier ih =>
    funext id
    rw [meaningIn?, meaningOr, ih]

theorem Model.meaning_eq_ok {α : Type} {model : Model}
    {meaning : (String → Option α) → Struct → α} {id : String} {a : α} :
    model.meaning meaning id = .ok a ↔ meaningIn? meaning model.structs.reverse id = some a := by
  unfold Model.meaning
  split
  · next known => simp [known]
  · next unknown => simp [unknown]

section Named

variable {model : Model} {window : Nat} {earlier later : List Struct} {s : Struct} {α : Type}

/-- From `s` on no structure has the name of one before it, and after `s` none has its name. -/
theorem Model.WellFormed.apart (formed : model.WellFormed window)
    (place : model.structs = earlier ++ s :: later) :
    (∀ other ∈ later, other.id ≠ s.id) ∧
      ∀ before ∈ earlier, ∀ other ∈ s :: later, other.id ≠ before.id := by
  have distinct := (List.nodup_append.mp formed.names).2.1
  rw [place, List.map_append, List.map_cons, List.nodup_append, List.nodup_cons] at distinct
  obtain ⟨-, ⟨fresh, -⟩, apart⟩ := distinct
  refine ⟨fun other member same => fresh (same ▸ List.mem_map_of_mem member), ?_⟩
  intro before early other member same
  exact apart _ (List.mem_map_of_mem early) _ (List.mem_map_of_mem member) same.symm

/-- The meaning of a structure is made of the meanings of those before it. -/
theorem Model.WellFormed.meaningOr_self (formed : model.WellFormed window)
    (place : model.structs = earlier ++ s :: later) (fallback : α)
    (meaning : (String → α) → Struct → α) :
    meaningOr fallback meaning model.structs.reverse s.id =
      meaning (meaningOr fallback meaning earlier.reverse) s := by
  rw [place, List.reverse_append, List.reverse_cons, List.append_assoc, meaningOr_append,
    List.singleton_append, meaningOr, if_pos (beq_self_eq_true _)]
  exact fun other member => (formed.apart place).1 other (List.mem_reverse.mp member)

theorem Model.WellFormed.meaning_self (formed : model.WellFormed window)
    (place : model.structs = earlier ++ s :: later) (meaning : (String → Option α) → Struct → α) :
    model.meaning meaning s.id = .ok (meaning (meaningIn? meaning earlier.reverse) s) := by
  rw [Model.meaning_eq_ok, meaningIn?_eq_meaningOr, meaningIn?_eq_meaningOr,
    formed.meaningOr_self place]

theorem Model.WellFormed.meaningOr_earlier (formed : model.WellFormed window)
    (place : model.structs = earlier ++ s :: later) (fallback : α)
    (meaning : (String → α) → Struct → α) {before : Struct} (member : before ∈ earlier) :
    meaningOr fallback meaning model.structs.reverse before.id =
      meaningOr fallback meaning earlier.reverse before.id := by
  rw [place, List.reverse_append, meaningOr_append]
  exact fun other within =>
    (formed.apart place).2 before member other (List.mem_reverse.mp within)

end Named

/-- The elements of a field's value. A byte buffer is a single one. -/
def Field.elements (field : Field) (value : Value) : List Value :=
  match field.repetition, value with
  | .none, value => [value]
  | _, .list elements => elements
  | _, value => [value]

theorem Field.elements_single {field : Field} (single : field.repetition = .none) (value : Value) :
    field.elements value = [value] := by
  simp [Field.elements, single]

theorem Field.elements_list {field : Field} (several : field.repetition ≠ .none)
    (elements : List Value) : field.elements (.list elements) = elements := by
  unfold Field.elements
  split <;> simp_all

theorem Field.elements_lone (field : Field) {value : Value}
    (lone : ∀ elements, value ≠ .list elements) : field.elements value = [value] := by
  unfold Field.elements
  split <;> simp_all

/-- The length of an array; that of a byte buffer is in bytes. -/
def Value.count : Value → Nat
  | .list elements => elements.length
  | .bytes buffer => buffer.length
  | _ => 1

def Record.elements (record : Record) (field : Field) : List Value :=
  ((record.lookup field.id).map field.elements).getD []

def Record.repeats (record : Record) (s : Struct) (field : Field) : Nat :=
  match field.repetition with
  | .none => 1
  | .constant count => count
  | .fieldRef index => (record.countAt s index).toOption.getD 0

theorem Record.get_eq_ok {record : Record} {id : String} {value : Value} :
    record.get id = .ok value ↔ record.lookup id = some value := by
  unfold Record.get
  split
  · next found => simp [found]
  · next missing => simp [missing]

theorem Record.elements_of_lookup {record : Record} {field : Field} {value : Value}
    (found : record.lookup field.id = some value) :
    record.elements field = field.elements value := by
  simp [Record.elements, found]

namespace Format

/-- The number that stands on the wire for a descriptor: its 16-bit code, but only the upper byte
if it has 8 bits. -/
def descriptorNumber (field : Field) (code : Nat) : Nat :=
  if field.width = 8 then wireCode code >>> 8 else wireCode code

/-- The bits of one element. Numbers have their lowest `width` bits, in two's complement. -/
def elementBits (nested : String → Value → List Bool) (field : Field) (value : Value) : List Bool :=
  match field.shape, value with
  | .struct typeId, value => nested typeId value
  | _, .unsigned n => bitsOfNat field.width n
  | _, .signed n => bitsOfNat field.width (ofSigned field.width n)
  | _, .rational value =>
    bitsOfNat 32 (ofSigned 32 value.num) ++ bitsOfNat 32 (ofSigned 32 value.den)
  | _, .bytes bytes => bitsOfBytes bytes
  | _, .text _ text => bitsOfBytes text.raw
  | _, .enum value => bitsOfNat field.width value.toNat
  | _, .descriptor code => bitsOfNat field.width (descriptorNumber field code)
  | _, _ => []

def fixedBits (field : Field) (value : Nat) : List Bool :=
  bitsOfNat field.width
    (if field.shape = .descriptor ∧ field.width = 8 then value >>> 8 else value)

def fieldBits (nested : String → Value → List Bool) (s : Struct) (record : Record)
    (field : Field) : List Bool :=
  match field.shape, field.fixed with
  | .payload, _ => []
  | .padding, _ => List.replicate (record.repeats s field * field.width) false
  | .parity code, _ => List.replicate code.parityBits false
  | _, some value => fixedBits field value
  | _, none => (record.elements field).flatMap (elementBits nested field)

theorem fieldBits_stored {nested : String → Value → List Bool} {s : Struct} {record : Record}
    {field : Field} (stored : field.isStored = true) :
    fieldBits nested s record field =
      (record.elements field).flatMap (elementBits nested field) := by
  unfold fieldBits
  split <;> simp_all [Field.isStored, Shape.isParity]

theorem fieldBits_fixed {nested : String → Value → List Bool} {s : Struct} {record : Record}
    {field : Field} {n : Nat} (fixed : field.fixed = some n) (header : field.shape ≠ .payload)
    (padding : field.shape ≠ .padding) (sized : field.shape.isParity = false) :
    fieldBits nested s record field = fixedBits field n := by
  unfold fieldBits
  split <;> simp_all [Shape.isParity]

theorem elementBits_congr {nested other : String → Value → List Bool} {field : Field}
    {value : Value}
    (same : ∀ typeId, field.shape = .struct typeId → nested typeId = other typeId) :
    elementBits nested field value = elementBits other field value := by
  unfold elementBits
  split
  · next typeId shape => rw [same typeId shape]
  all_goals rfl

theorem fieldBits_congr {nested other : String → Value → List Bool} {s : Struct} {record : Record}
    {field : Field}
    (same : ∀ typeId, field.shape = .struct typeId → nested typeId = other typeId) :
    fieldBits nested s record field = fieldBits other s record field := by
  have elements : elementBits nested field = elementBits other field :=
    funext fun value => elementBits_congr same
  unfold fieldBits
  rw [elements]

def structBits (nested : String → Value → List Bool) (s : Struct) : Value → List Bool
  | .record record => s.fields.flatMap (fieldBits nested s record)
  | _ => []

def everyRecord (check : Struct → Record → Bool) (nested : String → Value → Bool) (s : Struct) :
    Value → Bool
  | .record record => check s record && s.fields.all fun field =>
      match field.shape with
      | .struct typeId => (Record.elements record field).all (nested typeId)
      | _ => true
  | _ => false

def everyPart (check : Struct → Bool) (nested : String → Bool) (s : Struct) : Bool :=
  check s && s.fields.all fun field =>
    match field.shape with
    | .struct typeId => nested typeId
    | _ => true

theorem everyPart_iff {check : Struct → Bool} {nested : String → Bool} {s : Struct} :
    everyPart check nested s = true ↔ check s = true ∧
      ∀ field ∈ s.fields, ∀ typeId, field.shape = .struct typeId → nested typeId = true := by
  rw [everyPart, Bool.and_eq_true, List.all_eq_true]
  refine and_congr_right fun _ => forall₂_congr fun field _ => ?_
  cases field.shape <;> simp

/-- Whether a number that is not held in its own width has no more bits than that; sequence numbers
wrap. -/
def elementFits (field : Field) (value : Value) : Bool :=
  match field.shape, value with
  | .bitfield, .unsigned n => field.seq || n < 1 <<< field.width
  | .enum _, .enum value => value.toNat < 1 <<< field.width
  | _, _ => true

/-- Whether a stored field can be written: an array has as many elements as its count says. -/
def fieldFits (s : Struct) (record : Record) (field : Field) (value : Value) : Bool :=
  (match field.repetition with
    | .fieldRef _ => value.count == record.repeats s field
    | _ => true) &&
  (field.elements value).all (elementFits field)

theorem fieldFits_iff {s : Struct} {record : Record} {field : Field} {value : Value} :
    fieldFits s record field value = true ↔
      (∀ index, field.repetition = .fieldRef index → value.count = record.repeats s field) ∧
      ∀ element ∈ field.elements value, elementFits field element = true := by
  unfold fieldFits
  cases repetition : field.repetition <;> simp

def paddingFits (s : Struct) (record : Record) (field : Field) : Bool :=
  match field.repetition with
  | .none => true
  | .constant count => field.width * count < Size.bound
  | .fieldRef _ => record.repeats s field * (field.width / 8) < Size.bound

def recordFits (s : Struct) (record : Record) : Bool :=
  s.fields.all fun field =>
    if field.isStored then (record.lookup field.id).any (fieldFits s record field)
    else field.shape != .padding || paddingFits s record field

end Format

namespace Model

/-- The bits of a value of the structure on the wire. -/
def wireBits (model : Model) (id : String) (value : Value) : List Bool :=
  meaningOr (fun _ => []) Format.structBits model.structs.reverse id value

theorem WellFormed.fieldBits_wireBits {model : Model} {window : Nat}
    (formed : model.WellFormed window) {earlier later : List Struct} {s : Struct} {field : Field}
    (place : model.structs = earlier ++ s :: later) (inside : field ∈ s.fields) (record : Record) :
    Format.fieldBits model.wireBits s record field =
      Format.fieldBits (meaningOr (fun _ => []) Format.structBits earlier.reverse) s record
        field := by
  apply Format.fieldBits_congr
  intro typeId shape
  obtain ⟨-, nested, before, rfl, -⟩ :=
    (formed.structs earlier s later place).fields.structs field inside typeId shape
  funext value
  rw [wireBits, formed.meaningOr_earlier place _ _ before]

/-- The bits of a structure are those of its fields, with the bits of nested values among them. -/
theorem WellFormed.wireBits_record {model : Model} {window : Nat}
    (formed : model.WellFormed window) {s : Struct} (member : s ∈ model.structs)
    (record : Record) :
    model.wireBits s.id (.record record) =
      s.fields.flatMap (Format.fieldBits model.wireBits s record) := by
  obtain ⟨earlier, later, place⟩ := List.append_of_mem member
  rw [wireBits, formed.meaningOr_self place, Format.structBits, List.flatMap_def, List.flatMap_def,
    List.map_congr_left fun field inside => formed.fieldBits_wireBits place inside record]

def everyRecord (model : Model) (check : Struct → Record → Bool) (id : String) (value : Value) :
    Bool :=
  meaningOr (fun _ => false) (Format.everyRecord check) model.structs.reverse id value

def everyPart (model : Model) (check : Struct → Bool) (id : String) : Bool :=
  meaningOr false (Format.everyPart check) model.structs.reverse id

def fits (model : Model) : String → Value → Bool := model.everyRecord Format.recordFits

end Model

end PacketSpec
