import PacketSpec.Codec.Decode
import PacketSpec.Codec.Default
import PacketSpec.Codec.Encode

/-! What is known of a packet beside its bytes: its descriptor, its sequence number, its header. -/
namespace PacketSpec

/-- The registered descriptor of a structure, or else the one that the value holds. -/
def Struct.packetDescriptor (s : Struct) (packet : Record) : Except Fault Nat := do
  match s.descriptor, s.descriptorField?.filter Field.isStored with
  | some descriptor, _ => return descriptor
  | none, some field =>
    match ← packet.get field.id with
    | .descriptor code => return code
    | _ => throw (.illTyped field.id)
  | none, none => return 0

/-- The sequence number of a packet, if it carries one. -/
def Struct.packetSeq (s : Struct) (packet : Record) : Except Fault (Option Nat) := do
  match s.seqField? with
  | none => return none
  | some field =>
    match ← packet.get field.id with
    | .unsigned value => return some value
    | _ => throw (.illTyped field.id)

/-- The header size of the packets that start with a descriptor. -/
def Model.headerSizeOf? (model : Model) (descriptor : Nat) : Option Nat :=
  model.headerSizes.lookup (wireCode descriptor)

end PacketSpec
