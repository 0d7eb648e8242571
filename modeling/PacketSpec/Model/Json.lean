import PacketSpec.Json
import PacketSpec.Model.Basic

/-! The model as a JSON value. -/
namespace PacketSpec

open Json (number string list object ofOption)

def tagged (kind : String) (entries : List (String × Json)) : Json :=
  object (("kind", string kind) :: entries)

def Repetition.toJson : Repetition → Json
  | .none => tagged "none" []
  | .constant count => tagged "constant" [("value", number count)]
  | .fieldRef index => tagged "field_ref" [("value", number index)]

def Shape.toJson : Shape → Json
  | .scalar signed => tagged "scalar" [("signed", .bool signed)]
  | .bitfield => tagged "bitfield" []
  | .rational => tagged "rational" []
  | .bytes => tagged "bytes" []
  | .string capacity => tagged "string" [("capacity", number capacity)]
  | .struct typeId => tagged "struct" [("type_id", .string typeId)]
  | .enum typeId => tagged "enum" [("type_id", .string typeId)]
  | .descriptor => tagged "descriptor" []
  | .padding => tagged "padding" []
  | .parity code =>
    tagged "parity" [("code_bits", number code.codeBits), ("message_bits", number code.messageBits)]
  | .payload => tagged "payload" []

def Field.toJson (field : Field) : Json :=
  object [("id", string field.id), ("desc", field.shape.toJson), ("width", number field.width),
    ("repeat", field.repetition.toJson), ("fixed", ofOption number field.fixed),
    ("seq", .bool field.seq)]

def Role.toJson : Role → Json
  | .packet => string "packet"
  | .template => string "template"
  | .nested => string "nested"

def Struct.toJson (s : Struct) : Json :=
  object [("key", string s.key), ("id", string s.id), ("kind", string s.kind),
    ("role", s.role.toJson), ("fields", list (s.fields.map Field.toJson)),
    ("size_bits", number s.sizeBits), ("descriptor", ofOption number s.descriptor)]

def Enum.toJson (e : Enum) : Json :=
  object [("key", string e.key), ("id", string e.id),
    ("members", list (e.members.map fun m =>
      object [("id", string m.id), ("value", number m.value)]))]

def TemplatedStruct.toJson (t : TemplatedStruct) : Json :=
  object [("kind", string t.kind), ("descriptor", number t.descriptor),
    ("template_id", string t.templateId)]

def DescriptorTable.toJson (table : DescriptorTable) : Json :=
  object [("entries", list (table.entries.map fun (kind, code) =>
    list [string kind, number code]))]

def Model.toJson (model : Model) : Json :=
  object [("source", string model.source), ("enums", list (model.enums.map Enum.toJson)),
    ("structs", list (model.structs.map Struct.toJson)),
    ("templated", list (model.templated.map TemplatedStruct.toJson)),
    ("descriptors", model.descriptors.toJson),
    ("substructs", list (model.substructs.map string))]

end PacketSpec
