import PacketSpec.Codegen.Ident
import PacketSpec.Codegen.Literal
import PacketSpec.Model.Basic

/-! The Rust types of fields and the calls that read and write integers. -/
namespace PacketSpec.Codegen

/-- The width of the smallest integer type that holds `width` bits. -/
def integerWidth (width : Nat) : Except Fault Nat :=
  if width ≤ 8 then .ok 8
  else if width ≤ 16 then .ok 16
  else if width ≤ 32 then .ok 32
  else if width ≤ 64 then .ok 64
  else .error (.integerTooWide width)

def integerName (width : Nat) (signed : Bool) : Except Fault String := do
  let bits := Text.decimal (← integerWidth width)
  return if signed then s!"i{bits}" else s!"u{bits}"

def integer (width : Nat) (signed : Bool) : Except Fault Code := do
  return [.word (← integerName width signed)]

def elementType (field : Field) : Except Fault Code := do
  if field.seq then return code "u64"
  match field.shape with
  | .scalar signed => integer field.width signed
  | .bitfield => return code "u8"
  | .rational => return code "Rational"
  | .bytes => return brackets (code "u8;" ++ number (field.width / 8))
  | .string capacity => return code "FixedStr<" ++ number capacity ++ code ">"
  | .struct typeId => ident typeId
  | .enum typeId => ident typeId
  | .descriptor => return code "PktDescriptor"
  | .padding | .parity _ | .payload => throw (.unsupportedShape field.id)

def fieldType (field : Field) : Except Fault Code := do
  let element ← elementType field
  match field.repetition with
  | .none => return element
  | .constant count => return brackets (element ++ code ";" ++ number count)
  | .fieldRef _ =>
    if field.isByteBuffer then return code "Bytes"
    else return code "Vec<" ++ element ++ code ">"

def defaultValue (field : Field) : Code :=
  let isArray : Bool := match field.repetition with
    | .constant _ => true
    | _ => field.shape == .bytes
  if isArray then code "std::array::from_fn(|_| Default::default())"
  else code "Default::default()"

/-- Reads an integer with the reader `__r`. -/
def getInteger (width : Nat) (signed : Bool) : Except Fault Code := do
  let name ← integerName width signed
  return code s!"__r.get_{name}()"

def putInteger (width : Nat) (signed : Bool) (value : Code) : Except Fault Code := do
  let name ← integerName width signed
  return code s!"w.put_{name}" ++ parens value ++ code "?;"

def byteLength (count : Code) (elementBytes : Nat) : Code :=
  if elementBytes == 1 then count else count ++ code "*" ++ number elementBytes

end PacketSpec.Codegen
