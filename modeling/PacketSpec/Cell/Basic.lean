import PacketSpec.Size
import PacketSpec.Text.Basic

/-!
What the cells of a specification table say. The types take the form of numbers as a parameter:
the grammar yields numbers as written, and reading a cell turns them into 64-bit values.
-/
namespace PacketSpec.Cell

inductive Error where
  | malformed (text : String)
  | notAnInteger (digits : String)
  deriving DecidableEq, Repr

def Error.message : Error → String
  | .malformed text => s!"malformed cell '{text}'"
  | .notAnInteger digits => s!"cannot convert '{digits}' to an integer"

/-- A number as written: decimal digits, or hexadecimal ones after `0x` or `0X`. -/
abbrev Numeral := List Char

def Numeral.toNat : Numeral → Nat
  | '0' :: 'x' :: digits => Text.ofDigits 16 digits
  | '0' :: 'X' :: digits => Text.ofDigits 16 digits
  | digits => Text.ofDigits 10 digits

def Numeral.value (numeral : Numeral) : Except Error Nat :=
  if numeral.toNat < Size.bound then .ok numeral.toNat
  else .error (.notAnInteger (String.ofList numeral))

inductive MultiplierOf (ν : Type) where
  | count (n : ν)
  | field (name : String)
  deriving DecidableEq, Repr

inductive TypeKind where
  | unsigned
  | signed
  | bits
  | rational
  deriving DecidableEq, Repr

structure TypeOf (ν : Type) where
  multiplier : Option (MultiplierOf ν)
  kind : TypeKind
  width : ν
  deriving DecidableEq, Repr

inductive MarkerOf (ν : Type) where
  | none
  | fixed (value : ν)
  | payload
  | string
  | ldpc (codeBits messageBits : ν)
  | enum (key : String)
  | struct (key : String)
  | template (anchor : String)
  deriving DecidableEq, Repr

abbrev Multiplier := MultiplierOf Nat
abbrev TypeCell := TypeOf Nat
abbrev Marker := MarkerOf Nat

def MultiplierOf.value : MultiplierOf Numeral → Except Error Multiplier
  | .count n => .count <$> n.value
  | .field name => .ok (.field name)

/-- The multiplier's number is converted before the width. -/
def TypeOf.value (cell : TypeOf Numeral) : Except Error TypeCell := do
  let multiplier ← cell.multiplier.mapM MultiplierOf.value
  let width ← cell.width.value
  return { multiplier, kind := cell.kind, width }

def MarkerOf.value : MarkerOf Numeral → Except Error Marker
  | .none => .ok .none
  | .fixed n => .fixed <$> n.value
  | .payload => .ok .payload
  | .string => .ok .string
  | .ldpc codeBits messageBits => do
    let codeBits ← codeBits.value
    let messageBits ← messageBits.value
    return .ldpc codeBits messageBits
  | .enum key => .ok (.enum key)
  | .struct key => .ok (.struct key)
  | .template anchor => .ok (.template anchor)

end PacketSpec.Cell
