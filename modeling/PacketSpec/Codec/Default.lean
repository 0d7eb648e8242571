import PacketSpec.Codec.Value

/-! The values of structures in which nothing is stored yet: zeros, empty texts, first members. -/
namespace PacketSpec

namespace Codec

def defaultElement (model : Model) (nested : String → Option (Except Fault Value))
    (field : Field) : Except Fault Value := do
  if field.seq then return .unsigned 0
  match field.shape with
  | .scalar true => return .signed 0
  | .scalar false | .bitfield => return .unsigned 0
  | .rational => return .rational ⟨0, 0⟩
  | .bytes => return .bytes (List.replicate (field.width / 8) 0)
  | .string capacity => return .text capacity (Wire.FixedText.empty capacity)
  | .struct typeId => (nested typeId).getD (.error (.unknownType typeId))
  | .enum typeId => return .enum (← model.enum typeId).default
  | .descriptor => return .descriptor 0
  | .padding | .parity _ | .payload => throw (.unsupportedShape field.id)

def defaultField (model : Model) (nested : String → Option (Except Fault Value))
    (field : Field) : Except Fault Value := do
  match field.repetition with
  | .none => defaultElement model nested field
  | .constant count =>
    if field.isByteBuffer then return .bytes (List.replicate count 0)
    else return .list (List.replicate count (← defaultElement model nested field))
  | .fieldRef _ => return if field.isByteBuffer then .bytes [] else .list []

def defaultStruct (model : Model) (nested : String → Option (Except Fault Value)) (s : Struct) :
    Except Fault Value := do
  let fields ← s.storedFields.mapM fun field =>
    return (field.id, ← defaultField model nested field)
  return .record fields

end Codec

def Model.default (model : Model) (id : String) : Except Fault Value := do
  (← model.meaning (Codec.defaultStruct model) id)

end PacketSpec
