import PacketSpec.Codec.Layout
import PacketSpec.Codec.Value
import PacketSpec.Wire.Writer

/-!
Writing structures. What a value cannot be written for is an `EncodeError`; a value that is not of
the structure's type, or whose size leaves 64 bits, is a `Fault`.
-/
namespace PacketSpec

abbrev Encode := ExceptT Wire.EncodeError (StateT Wire.Writer (Except Fault))

namespace Encode

def write {α : Type} (action : Wire.Write α) : Encode α :=
  ExceptT.mk fun writer => .ok (action.run writer)

def check {α : Type} (result : Except Fault α) : Encode α :=
  ExceptT.mk fun writer => result.map fun a => (.ok a, writer)

def illTyped {α : Type} (field : Field) : Encode α := check (.error (.illTyped field.id))

end Encode

namespace Codec

abbrev Measure := Value → Except Fault Nat

def elementCount (field : Field) : Value → Except Fault Nat
  | .list elements => .ok elements.length
  | .bytes bytes => .ok bytes.length
  | _ => .error (.illTyped field.id)

def nestedSize (nested : String → Option Measure) (field : Field) (typeId : String)
    (value : Value) : Except Fault Nat :=
  match nested typeId with
  | none => .error (.unknownType typeId)
  | some size =>
    match field.repetition, value with
    | .none, value => size value
    | _, .list elements => do Size.sum (← elements.mapM size)
    | _, _ => .error (.illTyped field.id)

/-- The bytes of a field that shares none with its neighbours. -/
def alignedSize (nested : String → Option Measure) (s : Struct) (record : Record)
    (field : Field) : Except Fault Nat := do
  match field.shape with
  | .payload => return 0
  | .struct typeId => nestedSize nested field typeId (← record.get field.id)
  | _ =>
    match ← field.wireBits?, field.repetition with
    | some bits, _ => return bits / 8
    | none, .fieldRef index =>
      let count ←
        if field.isStored then elementCount field (← record.get field.id)
        else record.countAt s index
      Size.mul count (field.width / 8)
    | none, _ => throw (.unsupportedShape field.id)

def segmentSize (nested : String → Option Measure) (s : Struct) (record : Record) :
    Segment → Except Fault Nat
  | .chunk chunk => .ok (chunk.width / 8)
  | .aligned field => alignedSize nested s record field

def structSize (window : Nat) (nested : String → Option Measure) (s : Struct) : Measure
  | .record record => do
    Size.sum (← (← layout window s).mapM (segmentSize nested s record))
  | _ => .error (.illTyped s.id)

abbrev Encoder := Value → Encode Unit

def checkRange (s : Struct) (field : Field) (value : Nat) : Encode Unit :=
  let maximum := maxOfWidth field.width
  if maximum < value then throw (.invalidScalarValue s.id field.id value maximum) else pure ()

def packedValue (s : Struct) (record : Record) (field : Field) : Encode Nat := do
  match field.fixed with
  | some value => return value
  | none =>
    match ← Encode.check (record.get field.id) with
    | .unsigned value =>
      if field.seq then return value % 1 <<< field.width
      checkRange s field value
      return value
    | .enum value =>
      checkRange s field value.toNat
      return value.toNat
    | _ => Encode.illTyped field

def encodeChunk (s : Struct) (record : Record) (chunk : Chunk Field) : Encode Unit := do
  let terms ← chunk.fields.mapM fun packed =>
    return (← packedValue s record packed.symbol) <<< packed.shift
  Encode.write (Wire.Writer.unsigned (chunk.width / 8) (terms.foldl (· ||| ·) 0))

def encodeElement (nested : String → Option Encoder) (s : Struct) (field : Field)
    (value : Value) : Encode Unit := do
  let size := field.width / 8
  match field.shape, value with
  | .scalar false, .unsigned value => Encode.write (Wire.Writer.unsigned size value)
  | .scalar true, .signed value => Encode.write (Wire.Writer.signed size value)
  | .rational, .rational value => Encode.write (Wire.Writer.rational value)
  | .struct typeId, value =>
    match nested typeId with
    | some encode => encode value
    | none => Encode.check (.error (.unknownType typeId))
  | .enum _, .enum value =>
    checkRange s field value.toNat
    Encode.write (Wire.Writer.unsigned size value.toNat)
  | _, _ => Encode.illTyped field

def encodeElements (nested : String → Option Encoder) (s : Struct) (field : Field)
    (value : Value) : Encode Unit :=
  match field.repetition, value with
  | .none, value => encodeElement nested s field value
  | _, .bytes bytes =>
    if field.isByteBuffer then Encode.write (Wire.Writer.put bytes) else Encode.illTyped field
  | _, .list elements => elements.forM (encodeElement nested s field)
  | _, _ => Encode.illTyped field

def encodeStored (nested : String → Option Encoder) (s : Struct) (field : Field)
    (value : Value) : Encode Unit := do
  let size := field.width / 8
  match field.shape, value with
  | .scalar _, value =>
    match field.seq, value with
    | true, .unsigned value => Encode.write (Wire.Writer.unsigned size value)
    | true, _ => Encode.illTyped field
    | false, value => encodeElements nested s field value
  | .rational, value | .struct _, value | .enum _, value => encodeElements nested s field value
  | .bytes, .bytes bytes => Encode.write (Wire.Writer.put bytes)
  | .string _, .text _ text => Encode.write (Wire.Writer.fixedText text)
  | .descriptor, .descriptor code =>
    let code := wireCode code
    Encode.write (Wire.Writer.unsigned size (if field.width == 8 then code >>> 8 else code))
  | _, _ => Encode.illTyped field

/-- Refuses an array that has not as many elements as its count field says. -/
def checkCount (s : Struct) (record : Record) (field : Field) (value : Value) : Encode Unit := do
  match field.repetition with
  | .fieldRef index =>
    let count ← Encode.check (elementCount field value)
    let expected ← Encode.check (record.countAt s index)
    if count != expected then throw (.invalidArrayCount s.id field.id count expected)
  | _ => return ()

def encodeImplied (s : Struct) (record : Record) (field : Field) : Encode Unit := do
  match field.shape, field.fixed with
  | .padding, _ =>
    match field.repetition with
    | .fieldRef index =>
      let count ← Encode.check (record.countAt s index)
      let size ← Encode.check (Size.mul count (field.width / 8))
      Encode.write (Wire.Writer.zeros size)
    | _ =>
      let bits ← Encode.check field.wireBits?
      Encode.write (Wire.Writer.zeros (bits.getD 0 / 8))
  | .parity code, _ => Encode.write (Wire.Writer.parity code)
  | .payload, _ => return ()
  | .descriptor, some value =>
    let value := if field.width == 8 then value >>> 8 else value
    Encode.write (Wire.Writer.unsigned (field.width / 8) value)
  | .scalar _, some value => Encode.write (Wire.Writer.unsigned (field.width / 8) value)
  | _, _ => Encode.check (.error (.unsupportedShape field.id))

def encodeAligned (nested : String → Option Encoder) (s : Struct) (record : Record)
    (field : Field) : Encode Unit := do
  if field.isStored then
    let value ← Encode.check (record.get field.id)
    checkCount s record field value
    encodeStored nested s field value
  else encodeImplied s record field

def encodeSegment (nested : String → Option Encoder) (s : Struct) (record : Record) :
    Segment → Encode Unit
  | .chunk chunk => encodeChunk s record chunk
  | .aligned field => encodeAligned nested s record field

def encodeStruct (window : Nat) (nested : String → Option Encoder) (s : Struct) : Encoder
  | .record record => do
    (← Encode.check (layout window s)).forM (encodeSegment nested s record)
  | _ => Encode.check (.error (.illTyped s.id))

end Codec

namespace Model

/-- The bytes that a value takes on the wire, without its payload. -/
def encodedSize (model : Model) (window : Nat) (id : String) (value : Value) :
    Except Fault Nat := do
  (← model.meaning (Codec.structSize window) id) value

def encode (model : Model) (window : Nat) (id : String) (value : Value) : Encode Unit := do
  (← Encode.check (model.meaning (Codec.encodeStruct window) id)) value

/-- The bytes of a value of the structure, written to a buffer of its size. -/
def encodeToBytes (model : Model) (window : Nat) (id : String) (value : Value) :
    Except Fault (Except Wire.EncodeError Wire.Bytes) := do
  let size ← model.encodedSize window id value
  Size.checkBuffer size
  let (result, writer) ←
    (model.encode window id value).run { buffer := List.replicate size 0 }
  return result.map fun () => writer.written

end Model

end PacketSpec
