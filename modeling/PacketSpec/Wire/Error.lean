import PacketSpec.Text.Basic

/-! Why a packet cannot be written or read. -/
namespace PacketSpec.Wire

inductive EncodeError where
  | bufferTooSmall (wanted available : Nat)
  | invalidScalarValue (packet field : String) (value maximum : Nat)
  | invalidArrayCount (packet field : String) (count expected : Nat)
  | unsupportedLdpcCode (codeBits messageBits : Nat)
  deriving DecidableEq, Repr

open Text (decimal hex)

def EncodeError.message : EncodeError → String
  | .bufferTooSmall wanted available =>
    s!"output buffer too small, {decimal wanted} bytes needed but only {decimal available} left"
  | .invalidScalarValue packet field value maximum =>
    s!"the value of {packet}::{field} ({decimal value}) is outside the range of valid values 0..{decimal maximum}"
  | .invalidArrayCount packet field count expected =>
    s!"{packet}::{field} has {decimal count} elements, but the count field declares {decimal expected}"
  | .unsupportedLdpcCode codeBits messageBits =>
    s!"no LDPC encoder available for code ({decimal codeBits}, {decimal messageBits})"

inductive DecodeError where
  | invalidFixedValue (packet field : String) (expected actual : Nat)
  deriving DecidableEq, Repr

def DecodeError.message : DecodeError → String
  | .invalidFixedValue packet field expected actual =>
    s!"invalid fixed value for {packet}::{field}, got {hex actual}, expected {hex expected}"

end PacketSpec.Wire
