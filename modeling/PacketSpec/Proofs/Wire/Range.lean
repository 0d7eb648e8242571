import PacketSpec.Proofs.Wire.Bits

/-! The number that stands in a range of bits of a buffer. -/
namespace PacketSpec.Wire

def natOfBits (bits : List Bool) : Nat := bits.foldl (fun n bit => 2 * n + bit.toNat) 0

/-- The number in the `width` bits of a buffer that begin at bit `start`, the most significant bit
first. -/
def numberAt (buffer : Bytes) (start width : Nat) : Nat :=
  natOfBits (((bitsOfBytes buffer).drop start).take width)

theorem natOfBits_bitsOfNat (width n : Nat) : natOfBits (bitsOfNat width n) = n % 1 <<< width := by
  have folded (start : Nat) : (bitsOfNat width n).foldl (fun n bit => 2 * n + bit.toNat) start =
      start * 1 <<< width + n % 1 <<< width := by
    induction width generalizing start with
    | zero => simp [bitsOfNat, Nat.mod_one]
    | succ width ih =>
      rw [bitsOfNat, List.foldl_cons, ih, Nat.one_shiftLeft, Nat.one_shiftLeft, Nat.mod_pow_succ,
        ← Nat.toNat_testBit, Nat.pow_succ, Nat.add_mul, Nat.mul_comm (2 ^ width) 2,
        Nat.mul_comm (2 ^ width) (n.testBit width).toNat, ← Nat.mul_assoc, Nat.mul_comm start 2]
      omega
  rw [natOfBits, folded, Nat.zero_mul, Nat.zero_add]

theorem bitsOfNat_slice (before width after n : Nat) :
    ((bitsOfNat (before + width + after) n).drop before).take width =
      bitsOfNat width (n >>> after) := by
  rw [bitsOfNat_add, bitsOfNat_add, List.append_assoc, List.drop_left' (length_bitsOfNat _ _),
    List.take_left' (length_bitsOfNat _ _)]

theorem bitsOfBytes_drop (buffer : Bytes) (count : Nat) :
    bitsOfBytes (buffer.drop count) = (bitsOfBytes buffer).drop (8 * count) := by
  induction count generalizing buffer with
  | zero => rfl
  | succ count ih =>
    cases buffer with
    | nil => simp
    | cons byte rest =>
      rw [List.drop_succ_cons, ih, bitsOfBytes_cons, Nat.mul_succ, Nat.add_comm, ← List.drop_drop,
        List.drop_left' (length_bitsOfNat _ _)]

theorem bitsOfBytes_take (buffer : Bytes) (count : Nat) :
    bitsOfBytes (buffer.take count) = (bitsOfBytes buffer).take (8 * count) := by
  induction count generalizing buffer with
  | zero => rfl
  | succ count ih =>
    cases buffer with
    | nil => simp
    | cons byte rest =>
      have first : (bitsOfNat 8 byte.toNat).take (8 * (count + 1)) = bitsOfNat 8 byte.toNat :=
        List.take_of_length_le (by rw [length_bitsOfNat]; omega)
      rw [List.take_succ_cons, bitsOfBytes_cons, bitsOfBytes_cons, ih, List.take_append, first,
        length_bitsOfNat, Nat.mul_succ, Nat.add_sub_cancel]

theorem numberAt_append (front buffer : Bytes) (start width : Nat) :
    numberAt (front ++ buffer) (8 * front.length + start) width = numberAt buffer start width := by
  rw [numberAt, bitsOfBytes_append, ← List.drop_drop, List.drop_left' (length_bitsOfBytes _),
    numberAt]

/-- A range inside a word of whole bytes is cut out of the word by a shift and a mask. -/
theorem numberAt_word {buffer : Bytes} {cursor size before width after : Nat}
    (fits : cursor + size ≤ buffer.length) (filled : before + width + after = 8 * size) :
    numberAt buffer (8 * cursor + before) width =
      ofBigEndian ((buffer.drop cursor).take size) >>> after % 1 <<< width := by
  have word := bitsOfNat_ofBigEndian ((buffer.drop cursor).take size)
  have sized : ((buffer.drop cursor).take size).length = size := by
    rw [List.length_take, List.length_drop]
    omega
  rw [sized, bitsOfBytes_take, bitsOfBytes_drop] at word
  have inside : ((bitsOfBytes buffer).drop (8 * cursor + before)).take width =
      ((((bitsOfBytes buffer).drop (8 * cursor)).take (8 * size)).drop before).take width := by
    rw [List.drop_take, List.take_take, List.drop_drop, Nat.min_eq_left (by omega)]
  rw [numberAt, inside, ← word, ← filled, bitsOfNat_slice, natOfBits_bitsOfNat]

theorem numberAt_whole {buffer : Bytes} {cursor size : Nat} (fits : cursor + size ≤ buffer.length) :
    numberAt buffer (8 * cursor) (8 * size) = ofBigEndian ((buffer.drop cursor).take size) := by
  have word := @numberAt_word buffer cursor size 0 (8 * size) 0 fits (by omega)
  have bound := ofBigEndian_lt ((buffer.drop cursor).take size)
  rw [List.length_take, List.length_drop, Nat.min_eq_left (by omega)] at bound
  rwa [Nat.add_zero, Nat.shiftRight_zero, Nat.mod_eq_of_lt bound] at word

theorem numberAt_byte {buffer : Bytes} {index : Nat} (inside : index < buffer.length) :
    numberAt buffer (8 * index) 8 = buffer[index].toNat := by
  have byte := @numberAt_whole buffer index 1 inside
  rw [List.drop_eq_getElem_cons inside, List.take_succ_cons, List.take_zero] at byte
  simpa [ofBigEndian] using byte

end PacketSpec.Wire
