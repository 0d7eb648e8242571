import PacketSpec.Codegen.Types
import PacketSpec.Text.Case

/-! The unit with the descriptor type and the enumerations. -/
namespace PacketSpec.Codegen

def kindConstant (kind : String) : Except Fault Code := plainIdent (Text.shoutingCase kind)

def descriptorConstant (kind : String) (value : Nat) : Except Fault Code := do
  let name ← kindConstant kind
  let flag := if lsbFlag ≤ value then code "| PktDescriptor::FLAG_LSB_BITMASK" else []
  return docComment s!" Descriptor of `{kind}` packets." ++
    code "pub const" ++ name ++ code ": PktDescriptor = PktDescriptor" ++
    parens (hexNumber (clearFlag value) ++ flag) ++ code ";"

def descriptorName (kind : String) : Except Fault Code := do
  return code "PktDescriptor::" ++ (← kindConstant kind) ++ code "=> Some" ++
    parens [.quoted kind] ++ code ","

def descriptorDecl (model : Model) : Except Fault Code := do
  let entries := model.descriptors.entries
  let constants ← entries.mapM fun (kind, value) => descriptorConstant kind value
  let names ← entries.mapM fun (kind, _) => descriptorName kind
  let nameBody :=
    if entries.isEmpty then code "let _ = self; None"
    else code "match self" ++ braces (names.flatten ++ code "_ => None,")
  return docComment " Packet descriptor code." ++
    docComment "" ++
    docComment " Descriptors read from 8-bit fields hold the code in the upper" ++
    docComment " byte and are marked with [`PktDescriptor::FLAG_LSB_BITMASK`]." ++
    code "#[repr(transparent)]" ++
    code "#[derive(Debug, Default, Clone, Copy, PartialEq, Eq, Hash, PartialOrd, Ord)]" ++
    code "pub struct PktDescriptor(pub u32);" ++
    code "impl PktDescriptor" ++ braces (
      code "pub const FLAG_LSB_BITMASK: u32 = 0x8000_0000;" ++
      constants.flatten ++
      docComment " Wire code of the descriptor, flag cleared." ++
      code "pub const fn code(self) -> u16" ++ braces (code "(self.0 & 0xffff) as u16") ++
      docComment " Whether the descriptor is carried by an 8-bit field." ++
      code "pub const fn is_lsb(self) -> bool" ++
      braces (code "self.0 & Self::FLAG_LSB_BITMASK != 0") ++
      docComment " Descriptor kind name, `None` for unregistered codes." ++
      code "pub fn name(self) -> Option<&'static str>" ++ braces nameBody)

def enumDecl (e : Enum) : Except Fault Code := do
  let name ← ident e.id
  let members ← e.members.mapM fun m => return (← ident m.id, hexNumber m.value)
  let variants := members.zipIdx.flatMap fun ((id, _), index) =>
    (if index == 0 then code "#[default]" else []) ++ id ++ code ","
  let deriveDefault := if members.isEmpty then [] else code "Default,"
  let defaultImpl :=
    if members.isEmpty then
      code "impl Default for" ++ name ++ braces (
        code "fn default() -> Self" ++ braces (name ++ code "::Unknown(0)"))
    else []
  let fromArms := members.flatMap fun (id, value) =>
    value ++ code "=>" ++ name ++ code "::" ++ id ++ code ","
  let toArms := members.flatMap fun (id, value) =>
    name ++ code "::" ++ id ++ code "=>" ++ value ++ code ","
  return code "#" ++ brackets (code "derive" ++ parens (
      code "Debug," ++ deriveDefault ++ code "Clone, Copy, PartialEq, Eq, Hash")) ++
    code "pub enum" ++ name ++ braces (variants ++ code "Unknown(u64),") ++
    defaultImpl ++
    code "impl From<u64> for" ++ name ++ braces (
      code "fn from(value: u64) -> Self" ++ braces (
        code "match value" ++ braces (
          fromArms ++ code "value =>" ++ name ++ code "::Unknown(value),"))) ++
    code "impl From<" ++ name ++ code "> for u64" ++ braces (
      code "fn from(value:" ++ name ++ code ") -> Self" ++ braces (
        code "match value" ++ braces (
          toArms ++ name ++ code "::Unknown(value) => value,")))

/-- The code of the session start in the upper half, the fixed session version in the lower one. -/
def sessionId? (model : Model) : Option Nat := do
  let code ← model.descriptors.get? "session_start"
  let start ← model.structs.find? (·.kind == "session_start")
  let field ← start.fields.find? (·.id == "session_version")
  let version ← field.fixed
  return wireCode code <<< 16 + version % 1 <<< 16

def maxHeaderSize : Nat := 384

def enumsUnit (model : Model) : Except Fault Code := do
  let session := match sessionId? model with
    | some id =>
      docComment " Identifier of the session protocol version." ++
        code "pub const SESSION_ID: u32 =" ++ hexNumber id ++ code ";"
    | none => []
  let descriptor ← descriptorDecl model
  let enums ← model.enums.mapM enumDecl
  return docComment " Upper bound of the size of a packet header, in bytes." ++
    code "pub const MAX_HEADER_LEN: usize =" ++ number maxHeaderSize ++ code ";" ++
    session ++ descriptor ++ enums.flatten

end PacketSpec.Codegen
