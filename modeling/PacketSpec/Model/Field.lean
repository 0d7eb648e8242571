import PacketSpec.Size
import PacketSpec.Wire.Ldpc

/-! The fields of a structure. -/
namespace PacketSpec

inductive Repetition where
  | none
  | constant (count : Nat)
  /-- As many elements as the field at an earlier index says. -/
  | fieldRef (index : Nat)
  deriving DecidableEq, Repr

/-- What an element of a field holds. -/
inductive Shape where
  | scalar (signed : Bool)
  /-- An unsigned number narrower than a byte. -/
  | bitfield
  /-- Two signed 32-bit numbers. -/
  | rational
  | bytes
  | string (capacity : Nat)
  | struct (typeId : String)
  | enum (typeId : String)
  | descriptor
  /-- Zero bytes that carry nothing. -/
  | padding
  | parity (code : LdpcCode)
  /-- The data after a header. -/
  | payload
  deriving DecidableEq, Repr

structure Field where
  id : String
  shape : Shape
  /-- Bits of one element. -/
  width : Nat
  repetition : Repetition
  /-- The value of a constant field; the code of an 8-bit descriptor stands in the upper byte. -/
  fixed : Option Nat
  /-- Sequence numbers are held in 64 bits whatever their width. -/
  seq : Bool
  deriving DecidableEq, Repr

def Shape.isStruct : Shape → Bool
  | .struct _ => true
  | _ => false

def Shape.isEnum : Shape → Bool
  | .enum _ => true
  | _ => false

def Shape.isParity : Shape → Bool
  | .parity _ => true
  | _ => false

def Shape.isScalar : Shape → Bool
  | .scalar _ => true
  | _ => false

namespace Field

/-- Bits on the wire of all elements, if their number is known in advance. -/
def wireBits? (field : Field) : Except Fault (Option Nat) :=
  match field.shape, field.repetition with
  | .payload, _ => .ok none
  | _, .fieldRef _ => .ok none
  | .parity code, _ => some <$> Size.sub code.codeBits code.messageBits
  | _, .constant count => some <$> Size.mul field.width count
  | _, .none => .ok (some field.width)

/-- Whether the field shares a chunk with its neighbours. -/
def isPacked (field : Field) : Bool :=
  field.width < 8 && (field.shape == .bitfield || field.shape.isEnum)

/-- Whether a value of the structure holds the field. -/
def isStored (field : Field) : Bool :=
  field.fixed.isNone && field.shape != .padding && !field.shape.isParity && field.shape != .payload

/-- Whether several elements of the field are held as plain bytes. -/
def isByteBuffer (field : Field) : Bool :=
  field.shape == .scalar false && field.width == 8 && !field.seq

end Field

end PacketSpec
