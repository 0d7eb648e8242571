import PacketSpec.Builder.Enum
import PacketSpec.Text.Basic

/-! A row of a structure table becomes a field. -/
namespace PacketSpec.Builder

open Cell (TypeCell TypeKind Marker)

/-- What is known of a field before its shape. -/
structure Outline where
  row : RowRef
  id : String
  width : Nat
  repetition : Repetition

/-- The index of the field that holds an element count. -/
def resolveCount (row : RowRef) (siblings : List Field) (name : String) : Build Nat := do
  let name := Text.snakeCase name
  match siblings.findIdx? (·.id == name) with
  | none => failAt row (.undeclaredCount name)
  | some index =>
    match siblings[index]? with
    | some count =>
      if (count.shape == .scalar false || count.shape == .bitfield) && count.repetition == .none then
        return index
      else failAt row (.invalidCount name)
    | none => failAt row (.undeclaredCount name)

/-- One element is no repetition. -/
def resolveRepetition (row : RowRef) (siblings : List Field) (id : String) :
    Option Cell.Multiplier → Build Repetition
  | none => return .none
  | some (.count 0) => failAt row (.zeroElements id)
  | some (.count 1) => return .none
  | some (.count n) => return .constant n
  | some (.field name) => .fieldRef <$> resolveCount row siblings name

def isWordWidth (width : Nat) : Bool := width == 8 || width == 16 || width == 32 || width == 64

/-- The shape that follows from the type cell and the name of a field. -/
def typedShape (o : Outline) (kind : TypeKind) : Build Shape := do
  let repeated := o.repetition != .none
  let unsigned := kind == .unsigned || kind == .bits
  let invalidWidth : Build Shape := failAt o.row (.invalidWidth o.id o.width)
  let notRepeatable : Build Shape := failAt o.row (.notRepeatable o.id)
  if Text.endsWith o.id "descriptor" then
    if !(o.width == 8 || o.width == 16 || o.width == 32) then invalidWidth
    else if repeated then notRepeatable
    else return .descriptor
  else if Text.startsWith o.id "padding" && o.width % 8 == 0 then return .padding
  else if kind == .rational then
    if o.width == 64 then return .rational else invalidWidth
  else if unsigned && 1 ≤ o.width && o.width ≤ 7 then
    if repeated then notRepeatable else return .bitfield
  else if isWordWidth o.width then return .scalar (kind == .signed)
  else if unsigned && o.width % 8 == 0 then
    if repeated then notRepeatable else return .bytes
  else invalidWidth

/-- A fixed value as the model holds it. -/
def fixedValue (o : Outline) (shape : Shape) (value : Nat) : Build Nat := do
  let isDescriptor := shape == .descriptor
  if o.repetition != .none || !(shape.isScalar || shape == .bitfield || isDescriptor) then
    failAt o.row (.notFixable o.id)
  let limit ← checked (Size.mask (if isDescriptor then min o.width 16 else o.width))
  if limit < value then failAt o.row (.fixedOutOfRange value o.id o.width)
  if isDescriptor && o.width == 8 then checked (Size.shiftLeft value 8) else return value

/-- Refuses a parity that does not cover exactly the bits since the last one. -/
def checkParity (o : Outline) (code : LdpcCode) (bitsBefore : Nat) : Build Unit := do
  if !code.isByteAligned then failAt o.row (.invalidLdpcCode code)
  if code.messageBits != bitsBefore then failAt o.row (.uncoveredMessage code bitsBefore)
  let declared ← match o.repetition with
    | .none => pure (some o.width)
    | .constant count => some <$> checked (Size.mul o.width count)
    | .fieldRef _ => pure none
  let parityBits ← checked (Size.sub code.codeBits code.messageBits)
  if declared != some parityBits then failAt o.row (.invalidParityWidth o.id parityBits)

def nestedType (nested : String → Build (Option String)) (row : RowRef) (key : String) :
    Build String := do
  match ← nested key with
  | none => failAt row (.undeclaredStruct key)
  | some typeId =>
    if (((← get).model.struct? typeId).bind Struct.payloadField?).isSome then
      failAt row (.nestedPayload typeId)
    modifyModel fun model =>
      { model with substructs := Model.insertName typeId model.substructs }
    return typeId

/-- The field of an outline and a marker, but for its place among sequence numbers. -/
def shapeField (document : Document) (nested : String → Build (Option String)) (o : Outline)
    (kind : TypeKind) (marker : Marker) (bitsBefore : Nat) : Build Field := do
  let field (shape : Shape) : Field :=
    { id := o.id, shape, width := o.width, repetition := o.repetition, fixed := none, seq := false }
  match marker with
  | .payload => return field .payload
  | .ldpc codeBits messageBits =>
    checkParity o ⟨codeBits, messageBits⟩ bitsBefore
    return { field (.parity ⟨codeBits, messageBits⟩) with repetition := .none }
  | .struct key => return field (.struct (← nestedType nested o.row key))
  | .enum key =>
    if !(o.width < 8 && o.repetition == .none || isWordWidth o.width) then
      failAt o.row (.invalidEnumWidth o.id o.width)
    return field (.enum (← resolveEnum document key))
  | .string =>
    if o.width % 8 != 0 then failAt o.row (.unalignedString o.id)
    match o.repetition with
    | .none => return field (.string (o.width / 8))
    | .constant count =>
      let width ← checked (Size.mul o.width count)
      return { field (.string (width / 8)) with width, repetition := .none }
    | .fieldRef _ =>
      if o.width == 8 then return field (.scalar false)
      else failAt o.row (.wideStringElement o.id)
  | .fixed value =>
    let shape ← typedShape o kind
    return { field shape with fixed := some (← fixedValue o shape value) }
  | .none | .template _ => return field (← typedShape o kind)

/-- Repeated single bits without a meaning of their own are one field of as many bits. -/
def joinBits (marker : Marker) (cell : TypeCell) (width : Nat) :
    Repetition → Nat × Repetition
  | .constant count =>
    let plain := match marker with
      | .none | .fixed _ => true
      | _ => false
    if width == 1 && plain && (cell.kind == .unsigned || cell.kind == .bits) then (count, .none)
    else (width, .constant count)
  | repetition => (width, repetition)

/-- A field of a structure whose earlier fields are `siblings`; `bitsBefore` bits stand since the
last parity. -/
def buildField (document : Document) (nested : String → Build (Option String)) (row : RowRef)
    (siblings : List Field) (cell : TypeCell) (id : String) (marker : Marker)
    (bitsBefore : Nat) : Build Field := do
  if cell.width == 0 then failAt row (.zeroWidth id)
  let repetition ← resolveRepetition row siblings id cell.multiplier
  let (width, repetition) := joinBits marker cell cell.width repetition
  let field ← shapeField document nested { row, id, width, repetition } cell.kind marker bitsBefore
  if field.shape == .payload && siblings.any (·.shape == .payload) then
    failAt row (.secondPayload id)
  let seq := Text.contains id "seq" && (field.shape.isScalar || field.shape == .bitfield) &&
    field.repetition == .none
  return { field with seq }

end PacketSpec.Builder
