import PacketSpec.Wire.Utf8

/-!
A text field of fixed capacity. On the wire it has exactly that many bytes, and its content ends
before the first zero byte.
-/
namespace PacketSpec.Wire

structure FixedText (capacity : Nat) where
  raw : Bytes
  length_raw : raw.length = capacity
  deriving DecidableEq, Repr

namespace FixedText

variable {capacity : Nat}

/-- Cuts off what exceeds the capacity and fills up with zeros. -/
def ofBytes (capacity : Nat) (bytes : Bytes) : FixedText capacity where
  raw := bytes.take capacity ++ List.replicate (capacity - bytes.length) 0
  length_raw := by simp; omega

def ofString (capacity : Nat) (text : String) : FixedText capacity :=
  ofBytes capacity (Utf8.ofString text)

def empty (capacity : Nat) : FixedText capacity where
  raw := List.replicate capacity 0
  length_raw := by simp

def content (text : FixedText capacity) : Bytes := text.raw.takeWhile (· != 0)

def length (text : FixedText capacity) : Nat := text.content.length

def isEmpty (text : FixedText capacity) : Bool := text.length == 0

def toString? (text : FixedText capacity) : Option String := Utf8.toString? text.content

def toStringLossy (text : FixedText capacity) : String := Utf8.toStringLossy text.content

end FixedText

end PacketSpec.Wire
