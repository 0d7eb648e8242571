import PacketSpec.Wire.Bytes

/-! Numbers and bytes as strings of bits, the most significant bit first. -/
namespace PacketSpec.Wire

def bitsOfNat : Nat → Nat → List Bool
  | 0, _ => []
  | width + 1, n => n.testBit width :: bitsOfNat width n

def bitsOfBytes (bytes : Bytes) : List Bool := bytes.flatMap fun b => bitsOfNat 8 b.toNat

@[simp] theorem length_bitsOfNat (width n : Nat) : (bitsOfNat width n).length = width := by
  induction width with
  | zero => rfl
  | succ width ih => simp [bitsOfNat, ih]

theorem bitsOfNat_congr {width m n : Nat} (same : ∀ i < width, m.testBit i = n.testBit i) :
    bitsOfNat width m = bitsOfNat width n := by
  induction width with
  | zero => rfl
  | succ width ih =>
    rw [bitsOfNat, bitsOfNat, same width (by omega), ih fun i h => same i (by omega)]

theorem bitsOfNat_mod (width n : Nat) : bitsOfNat width (n % 1 <<< width) = bitsOfNat width n := by
  apply bitsOfNat_congr
  intro i inside
  simp [Nat.one_shiftLeft, Nat.testBit_mod_two_pow, inside]

theorem bitsOfNat_add (high low n : Nat) :
    bitsOfNat (high + low) n = bitsOfNat high (n >>> low) ++ bitsOfNat low n := by
  induction high with
  | zero => simp [bitsOfNat]
  | succ high ih =>
    rw [Nat.succ_add, bitsOfNat, bitsOfNat, ih, Nat.testBit_shiftRight, List.cons_append,
      Nat.add_comm low high]

@[simp] theorem bitsOfNat_zero (width : Nat) : bitsOfNat width 0 = List.replicate width false := by
  induction width with
  | zero => rfl
  | succ width ih => rw [bitsOfNat, ih, Nat.zero_testBit, List.replicate_succ]

theorem testBit_eq_of_bitsOfNat_eq {width m n : Nat}
    (same : bitsOfNat width m = bitsOfNat width n) : ∀ i < width, m.testBit i = n.testBit i := by
  induction width with
  | zero => intro i inside; omega
  | succ width ih =>
    rw [bitsOfNat, bitsOfNat, List.cons.injEq] at same
    intro i inside
    by_cases last : i = width
    · exact last ▸ same.1
    · exact ih same.2 i (by omega)

/-- A number is determined by its lowest bits as far as it has no others. -/
theorem mod_eq_of_bitsOfNat_eq {width m n : Nat} (same : bitsOfNat width m = bitsOfNat width n) :
    m % 1 <<< width = n % 1 <<< width := by
  apply Nat.eq_of_testBit_eq
  intro i
  rw [Nat.one_shiftLeft, Nat.testBit_mod_two_pow, Nat.testBit_mod_two_pow]
  by_cases inside : i < width
  · rw [testBit_eq_of_bitsOfNat_eq same i inside]
  · simp [inside]

theorem bitsOfNat_inj {width m n : Nat} (first : m < 1 <<< width) (second : n < 1 <<< width)
    (same : bitsOfNat width m = bitsOfNat width n) : m = n := by
  have := mod_eq_of_bitsOfNat_eq same
  rwa [Nat.mod_eq_of_lt first, Nat.mod_eq_of_lt second] at this

@[simp] theorem bitsOfBytes_nil : bitsOfBytes [] = [] := rfl

@[simp] theorem bitsOfBytes_cons (b : UInt8) (rest : Bytes) :
    bitsOfBytes (b :: rest) = bitsOfNat 8 b.toNat ++ bitsOfBytes rest := rfl

@[simp] theorem bitsOfBytes_append (front back : Bytes) :
    bitsOfBytes (front ++ back) = bitsOfBytes front ++ bitsOfBytes back := List.flatMap_append

@[simp] theorem length_bitsOfBytes (bytes : Bytes) :
    (bitsOfBytes bytes).length = 8 * bytes.length := by
  induction bytes with
  | nil => rfl
  | cons b rest ih =>
    rw [bitsOfBytes_cons, List.length_append, ih, length_bitsOfNat, List.length_cons]
    omega

theorem bitsOfBytes_injective {first second : Bytes}
    (same : bitsOfBytes first = bitsOfBytes second) : first = second := by
  have lengths := congrArg List.length same
  simp only [length_bitsOfBytes] at lengths
  induction first generalizing second with
  | nil =>
    cases second with
    | nil => rfl
    | cons => simp at lengths
  | cons b rest ih =>
    cases second with
    | nil => simp at lengths
    | cons c others =>
      rw [bitsOfBytes_cons, bitsOfBytes_cons] at same
      obtain ⟨head, tail⟩ := List.append_inj same (by simp)
      have bound (x : UInt8) : x.toNat < 1 <<< 8 := x.toNat_lt
      simp only [List.length_cons] at lengths
      rw [UInt8.toNat_inj.mp (bitsOfNat_inj (bound b) (bound c) head), ih tail (by omega)]

/-- Bits that start with whole bytes are those of these bytes and of the others. -/
theorem exists_append_of_bitsOfBytes_eq {bytes : Bytes} {front back : List Bool}
    (whole : front.length % 8 = 0) (same : bitsOfBytes bytes = front ++ back) :
    ∃ first second, bytes = first ++ second ∧ bitsOfBytes first = front ∧
      bitsOfBytes second = back := by
  have lengths := congrArg List.length same
  simp only [length_bitsOfBytes, List.length_append] at lengths
  refine ⟨bytes.take (front.length / 8), bytes.drop (front.length / 8),
    (List.take_append_drop _ _).symm, ?_⟩
  rw [← List.take_append_drop (front.length / 8) bytes, bitsOfBytes_append] at same
  exact List.append_inj same (by rw [length_bitsOfBytes, List.length_take]; omega)

theorem bitsOfBytes_bigEndian (count n : Nat) :
    bitsOfBytes (bigEndian count n) = bitsOfNat (8 * count) n := by
  induction count with
  | zero => rfl
  | succ count ih =>
    have byte : bitsOfNat 8 (UInt8.ofNat (n >>> (8 * count))).toNat =
        bitsOfNat 8 (n >>> (8 * count)) := bitsOfNat_mod 8 _
    rw [bigEndian, bitsOfBytes_cons, ih, byte, ← bitsOfNat_add, Nat.mul_succ, Nat.add_comm]

@[simp] theorem bitsOfBytes_zeros (count : Nat) :
    bitsOfBytes (List.replicate count 0) = List.replicate (8 * count) false := by
  induction count with
  | zero => rfl
  | succ count ih =>
    rw [List.replicate_succ, bitsOfBytes_cons, ih, UInt8.toNat_zero, bitsOfNat_zero,
      List.replicate_append_replicate, Nat.mul_succ, Nat.add_comm]

theorem bitsOfNat_foldl (bytes : Bytes) (width start : Nat) :
    bitsOfNat (width + 8 * bytes.length) (bytes.foldl (fun n b => n * 256 + b.toNat) start) =
      bitsOfNat width start ++ bitsOfBytes bytes := by
  induction bytes generalizing width start with
  | nil => simp
  | cons b rest ih =>
    have bound : b.toNat < 256 := b.toNat_lt
    have high : (start * 256 + b.toNat) >>> 8 = start := by
      rw [Nat.shiftRight_eq_div_pow]
      omega
    have low : bitsOfNat 8 (start * 256 + b.toNat) = bitsOfNat 8 b.toNat := by
      rw [← bitsOfNat_mod 8 (start * 256 + b.toNat), ← bitsOfNat_mod 8 b.toNat]
      have byte : 1 <<< 8 = 256 := rfl
      rw [byte]
      congr 1
      omega
    rw [List.foldl_cons, List.length_cons, Nat.mul_succ, Nat.add_comm (8 * rest.length),
      ← Nat.add_assoc, ih, bitsOfNat_add, high, low, bitsOfBytes_cons, List.append_assoc]

theorem bitsOfNat_ofBigEndian (bytes : Bytes) :
    bitsOfNat (8 * bytes.length) (ofBigEndian bytes) = bitsOfBytes bytes := by
  have := bitsOfNat_foldl bytes 0 0
  simpa [ofBigEndian, bitsOfNat] using this

theorem foldl_lt (bytes : Bytes) (start : Nat) :
    bytes.foldl (fun n b => n * 256 + b.toNat) start < (start + 1) <<< (8 * bytes.length) := by
  induction bytes generalizing start with
  | nil => simp
  | cons b rest ih =>
    have bound : b.toNat < 256 := b.toNat_lt
    have grown : (start + 1) <<< (8 * (rest.length + 1)) =
        ((start + 1) * 256) <<< (8 * rest.length) := by
      rw [Nat.mul_succ, Nat.add_comm (8 * rest.length), Nat.shiftLeft_add, Nat.shiftLeft_eq _ 8]
    rw [List.foldl_cons, List.length_cons, grown]
    refine Nat.lt_of_lt_of_le (ih _) ?_
    rw [Nat.shiftLeft_eq, Nat.shiftLeft_eq]
    exact Nat.mul_le_mul_right _ (by omega)

theorem ofBigEndian_lt (bytes : Bytes) : ofBigEndian bytes < 1 <<< (8 * bytes.length) := by
  have := foldl_lt bytes 0
  rwa [Nat.zero_add] at this

theorem ofSigned_lt (bits : Nat) (n : Int) : ofSigned bits n < 1 <<< bits := by
  have positive : (0 : Int) < (1 <<< bits : Nat) := by
    rw [Nat.one_shiftLeft]
    exact_mod_cast Nat.two_pow_pos bits
  have low := Int.emod_nonneg n (Int.ne_of_gt positive)
  have high := Int.emod_lt_of_pos n positive
  unfold ofSigned
  omega

def FitsSigned (bits : Nat) (n : Int) : Prop :=
  -(1 <<< (bits - 1) : Nat) ≤ n ∧ n < (1 <<< (bits - 1) : Nat)

instance (bits : Nat) (n : Int) : Decidable (FitsSigned bits n) :=
  inferInstanceAs (Decidable (_ ∧ _))

theorem toSigned_ofSigned {bits : Nat} {n : Int} (positive : 0 < bits)
    (fits : FitsSigned bits n) : toSigned bits (ofSigned bits n) = n := by
  have whole : 1 <<< bits = 2 * 1 <<< (bits - 1) := by
    obtain ⟨k, rfl⟩ : ∃ k, bits = k + 1 := ⟨bits - 1, by omega⟩
    rw [Nat.add_sub_cancel, Nat.one_shiftLeft, Nat.one_shiftLeft, Nat.pow_succ, Nat.mul_comm]
  obtain ⟨low, high⟩ := fits
  unfold toSigned ofSigned
  generalize 1 <<< (bits - 1) = half at *
  rw [whole]
  by_cases negative : n < 0
  · have wrapped : n % ((2 * half : Nat) : Int) = n + (2 * half : Nat) := by
      rw [← Int.add_emod_right, Int.emod_eq_of_lt (by omega) (by omega)]
    rw [wrapped, if_neg (by omega)]
    omega
  · rw [Int.emod_eq_of_lt (by omega) (by omega), if_pos (by omega)]
    omega

theorem ofSigned_toSigned {bits n : Nat} (fits : n < 1 <<< bits) :
    ofSigned bits (toSigned bits n) = n := by
  unfold toSigned ofSigned
  split
  · rw [Int.emod_eq_of_lt (by omega) (by omega)]
    omega
  · rw [Int.sub_emod_right, Int.emod_eq_of_lt (by omega) (by omega)]
    omega

end PacketSpec.Wire
