/-! Numbers as bytes. The wire is big endian, parity words are little endian. -/
namespace PacketSpec.Wire

abbrev Bytes := List UInt8

/-- The lowest `count` bytes of a number, most significant first. -/
def bigEndian : Nat → Nat → Bytes
  | 0, _ => []
  | count + 1, n => UInt8.ofNat (n >>> (8 * count)) :: bigEndian count n

def ofBigEndian (bytes : Bytes) : Nat := bytes.foldl (fun n b => n * 256 + b.toNat) 0

/-- The lowest `count` bytes of a number, least significant first. -/
def littleEndian : Nat → Nat → Bytes
  | 0, _ => []
  | count + 1, n => UInt8.ofNat n :: littleEndian count (n >>> 8)

/-- The number that two's complement of `bits` bits stands for. -/
def toSigned (bits n : Nat) : Int :=
  if n < 1 <<< (bits - 1) then (n : Int) else (n : Int) - (1 <<< bits : Nat)

/-- The two's complement of a number in `bits` bits. -/
def ofSigned (bits : Nat) (n : Int) : Nat := (n % (1 <<< bits : Nat)).toNat

@[simp] theorem length_bigEndian (count n : Nat) : (bigEndian count n).length = count := by
  induction count with
  | zero => rfl
  | succ count ih => simp [bigEndian, ih]

@[simp] theorem length_littleEndian (count n : Nat) : (littleEndian count n).length = count := by
  induction count generalizing n with
  | zero => rfl
  | succ count ih => simp [littleEndian, ih]

end PacketSpec.Wire
