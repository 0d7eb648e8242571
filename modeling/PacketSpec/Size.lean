/-!
Sizes and positions are 64-bit unsigned numbers. A computation that leaves that range, or that
meets a situation no accepted specification can produce, stops with a `Fault`. Buffers and counters
have narrower ranges.
-/
namespace PacketSpec

inductive Fault where
  | sizeOverflow
  | bufferOverflow
  | counterOverflow
  | invalidIdentifier (text : String)
  | integerTooWide (width : Nat)
  | invalidLayout (typeId : String)
  | unsupportedShape (field : String)
  | missingField (field : String)
  | unknownType (typeId : String)
  | illTyped (field : String)
  deriving DecidableEq, Repr

namespace Size

/-- The number of sizes, one more than the largest. -/
def bound : Nat := 1 <<< 64

def check (n : Nat) : Except Fault Nat :=
  if n < bound then .ok n else .error .sizeOverflow

/-- The largest buffer is half as large as there are sizes. -/
def checkBuffer (size : Nat) : Except Fault Unit :=
  if size < 1 <<< 63 then .ok () else .error .bufferOverflow

/-- Counters are signed 32-bit numbers. -/
def checkCounter (n : Nat) : Except Fault Unit :=
  if n < 1 <<< 31 then .ok () else .error .counterOverflow

def add (a b : Nat) : Except Fault Nat := check (a + b)

def sub (a b : Nat) : Except Fault Nat :=
  if b ≤ a then .ok (a - b) else .error .sizeOverflow

def mul (a b : Nat) : Except Fault Nat := check (a * b)

def shiftLeft (a bits : Nat) : Except Fault Nat := check (a <<< bits)

/-- The word whose lowest `width` bits are set. -/
def mask (width : Nat) : Except Fault Nat :=
  if width < 64 then do sub (← shiftLeft 1 width) 1 else .ok (bound - 1)

def sum (sizes : List Nat) : Except Fault Nat := sizes.foldlM add 0

end Size

/-- The largest number of `width` bits, for words of at most 64 bits. -/
def maxOfWidth (width : Nat) : Nat := 1 <<< min width 64 - 1

end PacketSpec
