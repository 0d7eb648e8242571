import PacketSpec.Codec.Layout
import PacketSpec.Codec.Value
import PacketSpec.Wire.Error

/-!
Reading structures. Fixed fields are compared with their values; everything else reads, as zero
where the input ends early.
-/
namespace PacketSpec

abbrev Decode := ExceptT Wire.DecodeError (StateT Wire.Reader (Except Fault))

namespace Decode

def read {α : Type} (action : StateM Wire.Reader α) : Decode α :=
  ExceptT.mk fun reader =>
    let (a, reader) := action.run reader
    .ok (.ok a, reader)

def check {α : Type} (result : Except Fault α) : Decode α :=
  ExceptT.mk fun reader => result.map fun a => (.ok a, reader)

def remaining : Decode Nat := return (← getThe Wire.Reader).remaining

def times {α : Type} (element : Decode α) : Nat → Decode (List α)
  | 0 => return []
  | count + 1 => do
    let first ← element
    return first :: (← times element count)

/-- Reads values as long as there is input, but at most a number of them. -/
def upTo {α : Type} (element : Decode α) : Nat → Decode (List α)
  | 0 => return []
  | count + 1 => do
    if (← remaining) == 0 then return []
    let first ← element
    return first :: (← upTo element count)

end Decode

namespace Codec

/-- What has been read of a structure: fields by name, the last one first. -/
structure Parsed where
  record : Record := []
  payload : Option Wire.Bytes := none

namespace Parsed

def store (parsed : Parsed) (field : Field) (value : Value) : Parsed :=
  { parsed with record := (field.id, value) :: parsed.record }

end Parsed

/-- Reads a structure and the payload after it. -/
abbrev Decoder := Decode (Value × Option Wire.Bytes)

def checkFixed (s : Struct) (field : Field) (actual expected : Nat) : Decode Unit :=
  if actual == expected then pure ()
  else throw (.invalidFixedValue s.id field.id expected actual)

def decodePacked (model : Model) (s : Struct) (word : Nat) (parsed : Parsed)
    (packed : Packed Field) : Decode Parsed := do
  let field := packed.symbol
  let value := word >>> packed.shift % 1 <<< packed.width
  match field.fixed, field.shape with
  | some expected, _ =>
    checkFixed s field value expected
    return parsed
  | none, .enum typeId =>
    let e ← Decode.check (model.enum typeId)
    return parsed.store field (.enum (e.ofNat value))
  | none, _ => return parsed.store field (.unsigned value)

def decodeChunk (model : Model) (s : Struct) (parsed : Parsed) (chunk : Chunk Field) :
    Decode Parsed := do
  let word ← Decode.read (Wire.Reader.unsigned (chunk.width / 8))
  chunk.fields.foldlM (decodePacked model s word) parsed

def decodeElement (model : Model) (nested : String → Option Decoder) (field : Field) :
    Decode Value := do
  let size := field.width / 8
  match field.shape with
  | .scalar true => return .signed (← Decode.read (Wire.Reader.signed size))
  | .scalar false => return .unsigned (← Decode.read (Wire.Reader.unsigned size))
  | .rational => return .rational (← Decode.read Wire.Reader.rational)
  | .struct typeId =>
    match nested typeId with
    | some decoder => Prod.fst <$> decoder
    | none => Decode.check (.error (.unknownType typeId))
  | .enum typeId =>
    let e ← Decode.check (model.enum typeId)
    return .enum (e.ofNat (← Decode.read (Wire.Reader.unsigned size)))
  | _ => Decode.check (.error (.unsupportedShape field.id))

def decodeElements (model : Model) (nested : String → Option Decoder) (s : Struct)
    (record : Record) (field : Field) : Decode Value := do
  let element := decodeElement model nested field
  match field.repetition with
  | .none => element
  | .constant count =>
    if field.isByteBuffer then return .bytes (← Decode.read (Wire.Reader.array count))
    else return .list (← Decode.times element count)
  | .fieldRef index =>
    let count ← Decode.check (record.countAt s index)
    if field.isByteBuffer then return .bytes (← Decode.read (Wire.Reader.slice count))
    else if field.shape.isStruct then return .list (← Decode.upTo element count)
    else
      let whole := (← Decode.remaining) / (field.width / 8)
      return .list (← Decode.times element (min count whole))

def decodeStored (model : Model) (nested : String → Option Decoder) (s : Struct)
    (record : Record) (field : Field) : Decode Value := do
  let size := field.width / 8
  match field.shape with
  | .scalar _ =>
    if field.seq then return .unsigned (← Decode.read (Wire.Reader.unsigned size))
    else decodeElements model nested s record field
  | .rational | .struct _ | .enum _ => decodeElements model nested s record field
  | .bytes => return .bytes (← Decode.read (Wire.Reader.array size))
  | .string capacity => return .text capacity (← Decode.read (Wire.Reader.fixedText capacity))
  | .descriptor =>
    let code ← Decode.read (Wire.Reader.unsigned size)
    return .descriptor (if field.width == 8 then code <<< 8 ||| lsbFlag else code)
  | _ => Decode.check (.error (.unsupportedShape field.id))

def elementBytes (field : Field) (count : Nat) : Except Fault Nat :=
  Size.mul count (field.width / 8)

def decodePayload (s : Struct) (record : Record) (field : Field) : Decode Wire.Bytes := do
  let size ← match field.repetition with
    | .none => Decode.remaining
    | .constant count => do
      let bits ← Decode.check (Size.mul count field.width)
      pure (bits / 8)
    | .fieldRef index => do
      let count ← Decode.check (record.countAt s index)
      Decode.check (elementBytes field count)
  Decode.read (Wire.Reader.slice size)

def decodeImplied (s : Struct) (parsed : Parsed) (field : Field) : Decode Parsed := do
  match field.shape, field.fixed with
  | .padding, _ =>
    match field.repetition with
    | .fieldRef index =>
      let count ← Decode.check (parsed.record.countAt s index)
      Decode.read (Wire.Reader.skip (← Decode.check (elementBytes field count)))
    | _ =>
      let bits ← Decode.check field.wireBits?
      Decode.read (Wire.Reader.skip (bits.getD 0 / 8))
    return parsed
  | .parity code, _ =>
    Decode.read (Wire.Reader.skip (code.parityBits / 8))
    return parsed
  | .payload, _ => return { parsed with payload := some (← decodePayload s parsed.record field) }
  | .descriptor, some expected =>
    let code ← Decode.read (Wire.Reader.unsigned (field.width / 8))
    checkFixed s field (if field.width == 8 then code <<< 8 else code) expected
    return parsed
  | .scalar _, some expected =>
    checkFixed s field (← Decode.read (Wire.Reader.unsigned (field.width / 8))) expected
    return parsed
  | _, _ => Decode.check (.error (.unsupportedShape field.id))

def decodeSegment (model : Model) (nested : String → Option Decoder) (s : Struct)
    (parsed : Parsed) : Segment → Decode Parsed
  | .chunk chunk => decodeChunk model s parsed chunk
  | .aligned field => do
    if field.isStored then
      return parsed.store field (← decodeStored model nested s parsed.record field)
    else decodeImplied s parsed field

def decodeStruct (model : Model) (window : Nat) (nested : String → Option Decoder) (s : Struct) :
    Decoder := do
  let segments ← Decode.check (layout window s)
  let parsed ← segments.foldlM (decodeSegment model nested s) {}
  let fields ← Decode.check (s.storedFields.mapM fun field =>
    return (field.id, ← parsed.record.get field.id))
  return (.record fields, parsed.payload)

end Codec

structure Decoded where
  packet : Value
  payload : Option Wire.Bytes
  /-- Bytes read, payload included. -/
  size : Nat

namespace Model

def decoder (model : Model) (window : Nat) (id : String) : Except Fault Codec.Decoder :=
  model.meaning (Codec.decodeStruct model window) id

def decodeFrom (model : Model) (window : Nat) (id : String) : Decode Value := do
  let decoder ← Decode.check (model.decoder window id)
  Prod.fst <$> decoder

/-- Reads a packet from the start of a buffer. -/
def decode (model : Model) (window : Nat) (id : String) (buffer : Wire.Bytes) :
    Except Fault (Except Wire.DecodeError Decoded) := do
  let decoder ← model.decoder window id
  let (result, reader) ← decoder.run { bytes := buffer }
  return result.map fun (packet, payload) => { packet, payload, size := reader.offset }

end Model

end PacketSpec
