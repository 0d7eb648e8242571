import PacketSpec.Model.Basic
import PacketSpec.Wire.Reader

/-! The values that structures hold. -/
namespace PacketSpec

inductive EnumValue where
  | named (member : EnumMember)
  | unknown (value : Nat)
  deriving DecidableEq, Repr

namespace EnumValue

def toNat : EnumValue → Nat
  | named member => member.value
  | unknown value => value

/-- The member's name, or the number of an unknown value. -/
def display : EnumValue → String
  | named member => member.id
  | unknown value => s!"Unknown({Text.decimal value})"

end EnumValue

namespace Enum

def ofNat (e : Enum) (value : Nat) : EnumValue :=
  ((e.members.find? (·.value == value)).map EnumValue.named).getD (.unknown value)

def default (e : Enum) : EnumValue := (e.members.head?.map EnumValue.named).getD (.unknown 0)

end Enum

inductive Value where
  | unsigned (value : Nat)
  | signed (value : Int)
  | rational (value : Wire.Rational)
  | bytes (value : Wire.Bytes)
  | text (capacity : Nat) (value : Wire.FixedText capacity)
  | enum (value : EnumValue)
  /-- A descriptor code with the flag of 8-bit descriptors. -/
  | descriptor (code : Nat)
  | list (elements : List Value)
  /-- The stored fields of a structure by name. -/
  | record (fields : List (String × Value))
  deriving Inhabited

abbrev Record := List (String × Value)

namespace Record

def get (record : Record) (id : String) : Except Fault Value :=
  match record.lookup id with
  | some value => .ok value
  | none => .error (.missingField id)

/-- The number that a field of the structure is fixed to or holds. -/
def countAt (record : Record) (s : Struct) (index : Nat) : Except Fault Nat :=
  match s.fields[index]? with
  | none => .error (.missingField s.id)
  | some field =>
    match field.fixed with
    | some value => .ok value
    | none => do
      match ← record.get field.id with
      | .unsigned value => .ok value
      | _ => .error (.illTyped field.id)

end Record

/-- Gives a structure a meaning that may depend on those of the structures before it; the list
starts with the last structure. -/
def meaningIn? {α : Type} (meaning : (String → Option α) → Struct → α) :
    List Struct → String → Option α
  | [], _ => none
  | s :: earlier, id =>
    if s.id == id then some (meaning (meaningIn? meaning earlier) s)
    else meaningIn? meaning earlier id

/-- The meaning of a structure of the model, in which every structure stands after its parts. -/
def Model.meaning {α : Type} (model : Model) (meaning : (String → Option α) → Struct → α)
    (id : String) : Except Fault α :=
  match meaningIn? meaning model.structs.reverse id with
  | some value => .ok value
  | none => .error (.unknownType id)

def Model.enum (model : Model) (id : String) : Except Fault Enum :=
  match model.enum? id with
  | some e => .ok e
  | none => .error (.unknownType id)

end PacketSpec
