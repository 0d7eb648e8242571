import PacketSpec.Codegen.Data
import PacketSpec.Codegen.Decoder
import PacketSpec.Codegen.Encoder
import PacketSpec.Text.Basic
import PacketSpec.Text.Lower
import PacketSpec.Text.Printable

/-! The four units of generated code, and all of them as modules of one file. -/
namespace PacketSpec.Codegen

inductive CodeUnit where
  | enums
  | data
  | encoder
  | decoder
  deriving DecidableEq, Repr

namespace CodeUnit

def all : List CodeUnit := [.enums, .data, .encoder, .decoder]

def moduleName : CodeUnit → String
  | .enums => "packet_enums"
  | .data => "packet_data"
  | .encoder => "packet_encode"
  | .decoder => "packet_decode"

def ofLowerName? (name : String) : Option CodeUnit :=
  if ["enums", "enum", "packet_enums"].contains name then some .enums
  else if ["data", "data-structs", "structs", "packet_data"].contains name then some .data
  else if ["encode", "encoder", "packet_encode"].contains name then some .encoder
  else if ["decode", "decoder", "packet_decode"].contains name then some .decoder
  else none

def ofName? (name : String) : Option CodeUnit := ofLowerName? (Text.lower name)

def unknownName (name : String) : String :=
  s!"could not parse {Text.quoted name}, valid units are enums, data, encode and decode"

end CodeUnit

/-- The components of a path that are not empty; `.` counts only at the start. -/
def pathComponents (path : String) : List String :=
  match (Text.split '/' path.toList).map String.ofList with
  | [] => []
  | first :: rest =>
    (if first == "" then [] else [first]) ++ rest.filter fun part => part != "" && part != "."

/-- The last component of a path, or the whole path when that does not name a file. -/
def fileName (path : String) : String :=
  match (pathComponents path).getLast? with
  | some name => if name == "." || name == ".." then path else name
  | none => path

def imports : CodeUnit → List Code
  | .enums => []
  | .data =>
    [code "use super::packet_enums::*;",
      code "use avt_runtime::" ++ braces (code "Bytes, FixedStr, Rational") ++ code ";"]
  | .encoder =>
    [code "use super::packet_data::*;", code "use super::packet_enums::*;",
      code "use avt_runtime::" ++ braces (code "Encode, EncodeError, Writer") ++ code ";"]
  | .decoder =>
    [code "use super::packet_data::*;", code "use super::packet_enums::*;",
      code "use avt_runtime::" ++
        braces (code "Bytes, Decode, DecodeError, DecodeFrom, Decoded, Reader") ++ code ";"]

/-- The imports of a unit under a comment that names the source, if it has imports. -/
def preamble (source : String) (unit : CodeUnit) : Code :=
  match imports unit with
  | [] => []
  | uses =>
    docComment s!" @generated rust {unit.moduleName} from {fileName source}." ++
      uses.flatMap fun use_ => code "#[allow(unused_imports)]" ++ use_

def items (model : Model) (unit : CodeUnit) (window : Nat) : Except Fault Code :=
  match unit with
  | .enums => enumsUnit model
  | .data => dataUnit model
  | .encoder => encoderUnit model window
  | .decoder => decoderUnit model window

def generate (model : Model) (unit : CodeUnit) (window : Nat) : Except Fault Code := do
  return preamble model.source unit ++ (← items model unit window)

/-- All units as modules, their declarations under one roof. -/
def generateModules (model : Model) (window : Nat) : Except Fault Code := do
  let modules ← CodeUnit.all.mapM fun unit => do
    return code s!"pub mod {unit.moduleName}" ++ braces (← generate model unit window)
  return modules.flatten ++ code "pub use packet_data::*; pub use packet_enums::*;"

end PacketSpec.Codegen
