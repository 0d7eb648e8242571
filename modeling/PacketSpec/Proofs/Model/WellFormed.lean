import PacketSpec.Codec.Layout

/-! What the structures and enumerations of an accepted model satisfy. Writing and reading packets
rely on all of it without checking. -/
namespace PacketSpec

def Shape.Admits (width : Nat) (repetition : Repetition) : Shape → Prop
  | .scalar _ => width ∈ [8, 16, 32, 64]
  | .bitfield => 1 ≤ width ∧ width ≤ 7 ∧ repetition = .none
  | .enum _ => (1 ≤ width ∧ width ≤ 7 ∧ repetition = .none) ∨ width ∈ [8, 16, 32, 64]
  | .rational => width = 64
  | .bytes => 0 < width ∧ width % 8 = 0 ∧ repetition = .none
  | .padding => 0 < width ∧ width % 8 = 0
  | .string capacity => 0 < capacity ∧ width = 8 * capacity ∧ repetition = .none
  | .descriptor => width ∈ [8, 16, 32] ∧ repetition = .none
  | .parity code => 0 < code.parityBits ∧ code.parityBits % 8 = 0 ∧ repetition = .none
  | .struct _ | .payload => 0 < width

/-- The values that a field can be fixed to. Those of descriptors are codes of 16 bits, and of an
8-bit one only the upper byte counts. -/
def Field.Fixes (field : Field) (value : Nat) : Prop :=
  field.repetition = .none ∧
  match field.shape with
  | .scalar _ | .bitfield => value ≤ maxOfWidth field.width
  | .descriptor => value ≤ maxOfWidth 16 ∧ (field.width = 8 → value % 256 = 0)
  | _ => False

structure Field.WellFormed (field : Field) : Prop where
  shape : field.shape.Admits field.width field.repetition
  several : ∀ count, field.repetition = .constant count → 2 ≤ count
  fixed : ∀ value, field.fixed = some value → field.Fixes value
  seq : field.seq = true →
    (field.shape.isScalar = true ∨ field.shape = .bitfield) ∧ field.repetition = .none

def Field.IsCount (field : Field) : Prop :=
  (field.shape = .scalar false ∨ field.shape = .bitfield) ∧ field.repetition = .none

theorem Field.WellFormed.descriptor_width {field : Field} (formed : field.WellFormed)
    (shape : field.shape = .descriptor) :
    field.width = 8 ∨ field.width = 16 ∨ field.width = 32 := by
  have admits := formed.shape
  rw [shape] at admits
  simpa [Shape.Admits] using admits.1

structure Enum.WellFormed (e : Enum) : Prop where
  ids : (e.members.map EnumMember.id).Nodup
  known : ∀ member ∈ e.members, member.id ≠ "Unknown"
  values : (e.members.map EnumMember.value).Nodup

/-- The fields of a structure that stands after the structures `earlier` in the model. -/
structure WellFormedFields (model : Model) (earlier : List Struct) (fields : List Field) :
    Prop where
  ids : (fields.map Field.id).Nodup
  payload : fields.countP (·.shape == .payload) ≤ 1
  each : ∀ field ∈ fields, field.WellFormed
  counts : ∀ (position index : Nat) (field : Field), fields[position]? = some field →
    field.repetition = .fieldRef index →
    index < position ∧ ∃ count, fields[index]? = some count ∧ count.IsCount
  structs : ∀ field ∈ fields, ∀ typeId, field.shape = .struct typeId →
    typeId ∈ model.substructs ∧
    ∃ nested ∈ earlier, nested.id = typeId ∧ nested.payloadField? = none
  enums : ∀ field ∈ fields, ∀ typeId, field.shape = .enum typeId →
    ∃ e ∈ model.enums, e.id = typeId ∧ e.WellFormed

/-- Bits of a field of known size, nested structures and payload left out. -/
def Field.staticBits (field : Field) : Nat :=
  match field.shape, field.repetition with
  | .payload, _ | .struct _, _ | _, .fieldRef _ => 0
  | .parity code, _ => code.parityBits
  | _, .constant count => field.width * count
  | _, .none => field.width

def staticBitsOf : List Field → Nat
  | [] => 0
  | field :: rest => field.staticBits + staticBitsOf rest

/-- The descriptor that a structure of these fields registers: the code to which the first field is
fixed, with the flag of 8-bit descriptors. -/
def registeredBy : List Field → Option Nat
  | [] => none
  | first :: _ =>
    if first.shape = .descriptor then
      first.fixed.map fun value => if first.width = 8 then value ||| lsbFlag else value
    else none

/-- A structure that stands after the structures `earlier` in a model whose narrow fields are packed
in the window. -/
structure Struct.WellFormed (window : Nat) (model : Model) (earlier : List Struct) (s : Struct) :
    Prop where
  fields : WellFormedFields model earlier s.fields
  sizeBits : s.sizeBits = staticBitsOf s.fields
  occupied : 0 < s.sizeBits
  descriptor : s.descriptor = registeredBy s.fields
  laid : ∃ segments, Codec.layout window s = .ok segments

/-- What every step of building a model keeps. -/
structure Model.Coherent (model : Model) (window : Nat) : Prop where
  structs : ∀ earlier s later, model.structs = earlier ++ s :: later →
    s.WellFormed window model earlier
  substructs : ∀ typeId ∈ model.substructs, ∃ s ∈ model.structs,
    s.id = typeId ∧ s.payloadField? = none
  enums : ∀ e ∈ model.enums, e.WellFormed

/-- Beside what holds while it is built, no two types of a finished model share a name. -/
structure Model.WellFormed (model : Model) (window : Nat) : Prop extends model.Coherent window where
  names : (model.enums.map Enum.id ++ model.structs.map Struct.id).Nodup

end PacketSpec
