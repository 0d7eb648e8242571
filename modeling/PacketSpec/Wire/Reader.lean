import PacketSpec.Wire.FixedText

/-!
A cursor over received bytes. Reading never fails: what does not lie whole before the end reads as
zero and leaves the cursor where it is.
-/
namespace PacketSpec.Wire

structure Rational where
  num : Int
  den : Int
  deriving DecidableEq, Repr

structure Reader where
  bytes : Bytes
  offset : Nat := 0
  deriving DecidableEq, Repr

namespace Reader

def remaining (reader : Reader) : Nat := reader.bytes.length - reader.offset

/-- The next `count` bytes, or none of them. -/
def take? (count : Nat) : StateM Reader (Option Bytes) := fun reader =>
  if count ≤ reader.remaining then
    (some ((reader.bytes.drop reader.offset).take count),
      { reader with offset := reader.offset + count })
  else (none, reader)

def unsigned (size : Nat) : StateM Reader Nat := do
  return ((← take? size).map ofBigEndian).getD 0

def signed (size : Nat) : StateM Reader Int := do
  return toSigned (8 * size) (← unsigned size)

def rational : StateM Reader Rational := do
  match ← take? 8 with
  | some bytes =>
    return ⟨toSigned 32 (ofBigEndian (bytes.take 4)), toSigned 32 (ofBigEndian (bytes.drop 4))⟩
  | none => return ⟨0, 0⟩

def array (size : Nat) : StateM Reader Bytes := do
  return (← take? size).getD (List.replicate size 0)

def fixedText (capacity : Nat) : StateM Reader (FixedText capacity) := do
  return ((← take? capacity).map (FixedText.ofBytes capacity)).getD (FixedText.empty capacity)

/-- As many of the next `size` bytes as there are. -/
def slice (size : Nat) : StateM Reader Bytes := fun reader =>
  let size := min size reader.remaining
  ((reader.bytes.drop reader.offset).take size, { reader with offset := reader.offset + size })

def skip (size : Nat) : StateM Reader Unit := fun reader =>
  ((), { reader with offset := reader.offset + min size reader.remaining })

end Reader

end PacketSpec.Wire
