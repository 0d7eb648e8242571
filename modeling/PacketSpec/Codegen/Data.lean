import PacketSpec.Codegen.Enums

/-! The unit with the structures, their union and the header size lookup. -/
namespace PacketSpec.Codegen

def structDoc (s : Struct) : String :=
  match s.role with
  | .packet => s!" `{s.kind}` packet, table `{s.key}`."
  | .template => s!" Generic `{s.kind}` packet layout."
  | .nested => s!" Structure `{s.key}`."

def structDecl (s : Struct) : Except Fault Code := do
  let name ← ident s.id
  let fields ← s.storedFields.mapM fun f => return (← ident f.id, f)
  let declared ← fields.mapM fun (id, f) =>
    return code "pub" ++ id ++ code ":" ++ (← fieldType f) ++ code ","
  let defaults := fields.flatMap fun (id, f) => id ++ code ":" ++ defaultValue f ++ code ","
  let descriptor ← match s.descriptor with
    | some _ =>
      pure (code "pub const DESCRIPTOR: PktDescriptor = PktDescriptor::" ++
        (← kindConstant s.kind) ++ code ";")
    | none => pure []
  return docComment (structDoc s) ++
    code "#[derive(Debug, Clone, PartialEq, Eq)]" ++
    code "pub struct" ++ name ++ braces declared.flatten ++
    code "impl" ++ name ++ braces (
      descriptor ++
      docComment " Size in bytes of the fixed part of the structure." ++
      code "pub const HEADER_SIZE: usize =" ++ number s.headerSize ++ code ";") ++
    code "impl Default for" ++ name ++ braces (
      code "fn default() -> Self" ++ braces (name ++ braces defaults))

def descriptorArm (s : Struct) : Except Fault Code := do
  let name ← ident s.id
  let stored := s.descriptorField?.filter Field.isStored
  match s.descriptor, stored with
  | some _, _ => return code "PacketData::" ++ name ++ code "(_) =>" ++ name ++ code "::DESCRIPTOR,"
  | none, some field =>
    return code "PacketData::" ++ name ++ code "(packet) => packet." ++ (← ident field.id) ++
      code ","
  | none, none => return code "PacketData::" ++ name ++ code "(_) => PktDescriptor::default(),"

def seqArm (s : Struct) : Except Fault Code := do
  let name ← ident s.id
  match s.seqField? with
  | some field =>
    return code "PacketData::" ++ name ++ code "(packet) => Some(packet." ++ (← ident field.id) ++
      code "),"
  | none => return code "PacketData::" ++ name ++ code "(_) => None,"

def packetUnion (model : Model) : Except Fault Code := do
  let packets := model.toplevel
  let names ← packets.mapM fun s => ident s.id
  let descriptorArms ← packets.mapM descriptorArm
  let seqArms ← packets.mapM seqArm
  let body (arms : List Code) : Code :=
    if packets.isEmpty then code "match *self" ++ braces []
    else code "match self" ++ braces arms.flatten
  let variants := names.flatMap fun name => name ++ parens name ++ code ","
  let conversions := names.flatMap fun name =>
    code "impl From<" ++ name ++ code "> for PacketData" ++ braces (
      code "fn from(packet:" ++ name ++ code ") -> Self" ++ braces (
        code "PacketData::" ++ name ++ code "(packet)"))
  return docComment " Packets decoded from the start of a buffer." ++
    code "#[derive(Debug, Clone, PartialEq, Eq)]" ++
    code "pub enum PacketData" ++ braces variants ++
    code "impl PacketData" ++ braces (
      code "pub fn descriptor(&self) -> PktDescriptor" ++ braces (body descriptorArms) ++
      docComment " Sequence number of the packet, if it carries one." ++
      code "pub fn seq(&self) -> Option<u64>" ++ braces (body seqArms)) ++
    conversions

def headerSizeLookup (model : Model) : Code :=
  let arms := model.headerSizes.flatMap fun (value, size) =>
    hexNumber value ++ code "=> Some" ++ parens (number size) ++ code ","
  let body :=
    if arms.isEmpty then code "let _ = descriptor; None"
    else code "match descriptor.code()" ++ braces (arms ++ code "_ => None,")
  docComment " Header size in bytes of the packets with the given descriptor," ++
    docComment " the 8-bit flag is ignored." ++
    code "pub fn header_size(descriptor: PktDescriptor) -> Option<usize>" ++ braces body

def dataUnit (model : Model) : Except Fault Code := do
  let structs ← model.structs.mapM structDecl
  let union ← packetUnion model
  return structs.flatten ++ union ++ headerSizeLookup model

end PacketSpec.Codegen
