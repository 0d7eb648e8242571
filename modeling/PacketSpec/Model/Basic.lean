import PacketSpec.Model.Field

/-! The model of a packet specification: enumerations, structures and descriptor codes. -/
namespace PacketSpec

inductive Role where
  /-- Listed by a descriptor range. -/
  | packet
  /-- The layout of several descriptors. -/
  | template
  /-- Only reached as a field of other structures. -/
  | nested
  deriving DecidableEq, Repr

structure Struct where
  /-- The key of the table in the document. -/
  key : String
  id : String
  /-- The name of the descriptor, in snake case. -/
  kind : String
  role : Role
  fields : List Field
  /-- Bits of the fields of known size, nested structures and payload left out. -/
  sizeBits : Nat
  descriptor : Option Nat
  deriving DecidableEq, Repr

namespace Struct

/-- Bytes of the fields of known size. -/
def headerSize (s : Struct) : Nat := s.sizeBits / 8

def descriptorField? (s : Struct) : Option Field := s.fields.find? (·.shape == .descriptor)

def seqField? (s : Struct) : Option Field := s.fields.find? fun f => f.seq && f.isStored

def payloadField? (s : Struct) : Option Field := s.fields.find? (·.shape == .payload)

/-- The stored fields in order, but the descriptor first and the sequence number next. -/
def storedFields (s : Struct) : List Field :=
  let hoisted := (s.descriptorField?.filter Field.isStored).toList ++ s.seqField?.toList
  hoisted ++ s.fields.filter fun f => f.isStored && !hoisted.contains f

end Struct

structure EnumMember where
  id : String
  value : Nat
  deriving DecidableEq, Repr

structure Enum where
  key : String
  id : String
  members : List EnumMember
  deriving DecidableEq, Repr

/-- A descriptor code that has the layout of a template. -/
structure TemplatedStruct where
  kind : String
  descriptor : Nat
  templateId : String
  deriving DecidableEq, Repr

/-- Descriptor codes by kind, in order of registration. -/
structure DescriptorTable where
  entries : List (String × Nat) := []
  deriving DecidableEq, Repr

namespace DescriptorTable

def get? (table : DescriptorTable) (kind : String) : Option Nat := table.entries.lookup kind

/-- Registers a code; a kind that is there already keeps its place. -/
def insert (table : DescriptorTable) (kind : String) (code : Nat) : DescriptorTable :=
  if (table.get? kind).isSome then
    { entries := table.entries.map fun (k, c) => if k = kind then (k, code) else (k, c) }
  else { entries := table.entries ++ [(kind, code)] }

def size (table : DescriptorTable) : Nat := table.entries.length

def isEmpty (table : DescriptorTable) : Bool := table.entries.isEmpty

end DescriptorTable

/-- Set on the codes of 8-bit descriptors, which stand in the upper byte of a 16-bit code. -/
def lsbFlag : Nat := 1 <<< 31

def clearFlag (code : Nat) : Nat := code % lsbFlag

/-- The 16 bits of a descriptor that stand on the wire. -/
def wireCode (descriptor : Nat) : Nat := descriptor % 1 <<< 16

structure Model where
  source : String
  enums : List Enum := []
  /-- A structure stands after those that it contains. -/
  structs : List Struct := []
  templated : List TemplatedStruct := []
  descriptors : DescriptorTable := {}
  /-- The type names of structures used as fields, in ascending order. -/
  substructs : List String := []
  deriving DecidableEq, Repr

namespace Model

def struct? (model : Model) (id : String) : Option Struct := model.structs.find? (·.id == id)

def enum? (model : Model) (id : String) : Option Enum := model.enums.find? (·.id == id)

/-- The structures that are read from the start of a buffer. -/
def toplevel (model : Model) : List Struct :=
  model.structs.filter fun s => !model.substructs.contains s.id

/-- The header size of the packets of a descriptor code; the flag does not count. -/
def headerSize? (model : Model) (code : Nat) : Option Nat :=
  let code := clearFlag code
  match (model.toplevel.filter (·.role == .packet)).find? fun s =>
      s.descriptor.map clearFlag == some code with
  | some packet => some packet.headerSize
  | none =>
    ((model.templated.find? (·.descriptor == code)).bind fun t =>
      model.struct? t.templateId).map Struct.headerSize

/-- The codes with a known header size, in order of registration. -/
def headerSizes (model : Model) : List (Nat × Nat) :=
  model.descriptors.entries.filterMap fun (_, code) =>
    (model.headerSize? code).map fun size => (clearFlag code, size)

/-- The kind of a descriptor, flag included. -/
def kind? (model : Model) (descriptor : Nat) : Option String :=
  (model.descriptors.entries.find? fun (_, code) => code == descriptor).map Prod.fst

def insertName (name : String) : List String → List String
  | [] => [name]
  | other :: rest =>
    if name < other then name :: other :: rest
    else if name = other then other :: rest
    else other :: insertName name rest

end Model

end PacketSpec
