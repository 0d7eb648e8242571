import PacketSpec.Wire.Ldpc

/-! Sums of words over GF(2). A word of the parity is the sum of the columns that the bits of the
message select, and bytes are added bit by bit. -/
namespace PacketSpec.Wire

/-- A bit of the bytes, where those of a byte are counted from the least significant one. -/
def bitAt (bytes : Bytes) (index : Nat) : Bool :=
  (bytes.getD (index / 8) 0).toNat.testBit (index % 8)

def xorBytes (first second : Bytes) : Bytes := List.zipWith (· ^^^ ·) first second

def ofLittleEndian : Bytes → Nat
  | [] => 0
  | byte :: rest => byte.toNat + 256 * ofLittleEndian rest

def wordAt (bytes : Bytes) (index : Nat) : UInt64 :=
  UInt64.ofNat (ofLittleEndian ((bytes.drop (8 * index)).take 8))

def xorAll (words : List UInt64) : UInt64 := words.foldl (· ^^^ ·) 0

def columnSum (count : Nat) (selected : Nat → Bool) (column : Nat → UInt64) : UInt64 :=
  xorAll (((List.range count).filter selected).map column)

theorem foldl_xor (words : List UInt64) (start : UInt64) :
    words.foldl (· ^^^ ·) start = start ^^^ xorAll words := by
  induction words generalizing start with
  | nil => exact (UInt64.xor_zero).symm
  | cons word rest ih =>
    rw [xorAll, List.foldl_cons, List.foldl_cons, ih, ih (0 ^^^ word), UInt64.zero_xor,
      UInt64.xor_assoc]

theorem xorAll_append (first second : List UInt64) :
    xorAll (first ++ second) = xorAll first ^^^ xorAll second := by
  rw [xorAll, List.foldl_append, foldl_xor]
  rfl

section Columns

variable {selected other : Nat → Bool} {column : Nat → UInt64}

theorem columnSum_add (first second : Nat) :
    columnSum (first + second) selected column =
      columnSum first selected column ^^^
        columnSum second (fun i => selected (first + i)) (fun i => column (first + i)) := by
  rw [columnSum, List.range_add, List.filter_append, List.map_append, xorAll_append,
    List.filter_map, List.map_map]
  rfl

theorem columnSum_one :
    columnSum 1 selected column = if selected 0 then column 0 else 0 := by
  change xorAll (([0].filter selected).map column) = _
  split
  · next chosen =>
    rw [List.filter_cons_of_pos chosen]
    exact UInt64.zero_xor
  · next left =>
    rw [List.filter_cons_of_neg left]
    rfl

theorem columnSum_succ (count : Nat) :
    columnSum (count + 1) selected column =
      columnSum count selected column ^^^ if selected count then column count else 0 := by
  rw [columnSum_add, columnSum_one]
  rfl

theorem columnSum_congr {columns : Nat → UInt64} {count : Nat}
    (bits : ∀ i < count, selected i = other i) (same : ∀ i < count, column i = columns i) :
    columnSum count selected column = columnSum count other columns := by
  induction count with
  | zero => rfl
  | succ count ih =>
    rw [columnSum_succ, columnSum_succ, bits count (by omega), same count (by omega),
      ih (fun i inside => bits i (by omega)) fun i inside => same i (by omega)]

/-- The sum is linear in the bits that select the columns. -/
theorem columnSum_xor (count : Nat) :
    columnSum count (fun i => selected i ^^ other i) column =
      columnSum count selected column ^^^ columnSum count other column := by
  induction count with
  | zero => exact UInt64.xor_zero.symm
  | succ count ih =>
    have step : (if (selected count ^^ other count) = true then column count else 0) =
        (if selected count = true then column count else 0) ^^^
          (if other count = true then column count else 0) := by
      cases selected count <;> cases other count <;> simp
    rw [columnSum_succ, columnSum_succ, columnSum_succ, ih, step]
    ac_rfl

end Columns

namespace ParityMatrix

theorem foldl_columns (byte : Nat → Bool) (columns : List UInt64) (index : Nat) (start : UInt64) :
    (columns.zipIdx index).foldl (fun word (column, k) =>
        if byte k then word ^^^ column else word) start =
      start ^^^ columnSum columns.length (fun i => byte (index + i)) (columns.getD · 0) := by
  induction columns generalizing index start with
  | nil => exact UInt64.xor_zero.symm
  | cons column rest ih =>
    have first : columnSum 1 (fun i => byte (index + i)) ((column :: rest).getD · 0) =
        if byte index then column else 0 := columnSum_one
    have later (i : Nat) : (column :: rest).getD (1 + i) 0 = rest.getD i 0 := by
      rw [Nat.add_comm, List.getD_cons_succ]
    rw [List.zipIdx_cons, List.foldl_cons, ih, List.length_cons, Nat.add_comm rest.length,
      columnSum_add, first]
    simp only [later, ← Nat.add_assoc]
    split <;> simp [UInt64.xor_assoc]

theorem selectByte_eq (byte : UInt8) (columns : List UInt64) :
    selectByte byte columns =
      columnSum columns.length byte.toNat.testBit (columns.getD · 0) := by
  have folded := foldl_columns byte.toNat.testBit columns 0 0
  simp only [Nat.zero_add, UInt64.zero_xor] at folded
  exact folded

/-- Every bit of the message meets its own column. -/
theorem selectMessage_eq {message : Bytes} {columns : List UInt64}
    (enough : 8 * message.length ≤ columns.length) :
    selectMessage message columns =
      columnSum (8 * message.length) (bitAt message) (columns.getD · 0) := by
  induction message generalizing columns with
  | nil => rfl
  | cons byte rest ih =>
    rw [List.length_cons] at enough
    have own : columnSum 8 (bitAt (byte :: rest)) (columns.getD · 0) =
        selectByte byte (columns.take 8) := by
      have size : (columns.take 8).length = 8 := by
        rw [List.length_take]
        omega
      rw [selectByte_eq, size]
      refine columnSum_congr (fun i inside => ?_) fun i inside => ?_
      · rw [bitAt, Nat.div_eq_of_lt inside, Nat.mod_eq_of_lt inside]
        rfl
      · simp [List.getElem?_take_of_lt inside]
    have others (i : Nat) : bitAt (byte :: rest) (8 + i) = bitAt rest i := by
      have place : (8 + i) / 8 = i / 8 + 1 := by omega
      rw [bitAt, place, Nat.add_mod_left, List.getD_cons_succ, bitAt]
    have behind (i : Nat) : columns.getD (8 + i) 0 = (columns.drop 8).getD i 0 := by
      simp [List.getElem?_drop]
    have shorter : 8 * rest.length ≤ (columns.drop 8).length := by
      rw [List.length_drop]
      omega
    rw [selectMessage, ih shorter, List.length_cons, Nat.mul_succ, Nat.add_comm, columnSum_add, own]
    simp only [others, behind]

variable (matrix : ParityMatrix) {index : Nat}

theorem length_row (inside : index < matrix.code.parityBits / 64) :
    (matrix.row index).length = matrix.code.codeBits := by
  have last : (index + 1) * matrix.code.codeBits ≤ matrix.words.length := by
    rw [matrix.length_words]
    exact Nat.mul_le_mul_right _ inside
  rw [Nat.succ_mul] at last
  rw [row, List.length_take, List.length_drop]
  omega

theorem row_getD {column : Nat} (inside : column < matrix.code.codeBits) :
    (matrix.row index).getD column 0 =
      matrix.words.getD (index * matrix.code.codeBits + column) 0 := by
  simp [row, List.getElem?_take_of_lt inside, List.getElem?_drop]

/-- The columns behind those of the message are never used. -/
theorem parityWord_eq {message : Bytes} (size : message.length = matrix.code.messageBits / 8)
    (inside : index < matrix.code.parityBits / 64) :
    matrix.parityWord message index =
      columnSum matrix.code.messageBits (bitAt message) fun i =>
        matrix.words.getD (index * matrix.code.codeBits + i) 0 := by
  have whole := matrix.message_bytes
  have positive := matrix.parity_pos
  have fits : matrix.code.messageBits < matrix.code.codeBits := by
    rw [LdpcCode.parityBits] at positive
    omega
  have bits : 8 * message.length = matrix.code.messageBits := by omega
  rw [parityWord, ← size, List.take_length, selectMessage_eq, bits]
  · exact columnSum_congr (fun _ _ => rfl) fun i below => matrix.row_getD (by omega)
  · rw [matrix.length_row inside]
    omega

end ParityMatrix

theorem ofLittleEndian_littleEndian (count n : Nat) :
    ofLittleEndian (littleEndian count n) = n % 1 <<< (8 * count) := by
  induction count generalizing n with
  | zero => simp [littleEndian, ofLittleEndian, Nat.mod_one]
  | succ count ih =>
    have byte : (UInt8.ofNat n).toNat = n % 256 := rfl
    have split : 1 <<< (8 * (count + 1)) = 256 * 1 <<< (8 * count) := by
      rw [Nat.one_shiftLeft, Nat.one_shiftLeft, Nat.mul_succ, Nat.pow_add, Nat.mul_comm]
    rw [littleEndian, ofLittleEndian, ih, byte, split, Nat.mod_mul, Nat.shiftRight_eq_div_pow]

theorem ofNat_littleEndian (word : UInt64) :
    UInt64.ofNat (ofLittleEndian (littleEndian 8 word.toNat)) = word := by
  have small : word.toNat % 1 <<< (8 * 8) = word.toNat := Nat.mod_eq_of_lt word.toNat_lt
  rw [ofLittleEndian_littleEndian, small, UInt64.ofNat_toNat]

/-- Of parts that are all of one size, each is found at its multiple of the size. -/
theorem slice_flatMap {size count index : Nat} {part : Nat → Bytes}
    (sized : ∀ i, (part i).length = size) (inside : index < count) :
    (((List.range count).flatMap part).drop (size * index)).take size = part index := by
  have front : ((List.range index).flatMap part).length = size * index := by
    rw [List.length_flatMap]
    simp only [sized, List.map_const', List.length_range, List.sum_replicate_nat, Nat.mul_comm]
  have own : ((List.range 1).map (index + ·)).flatMap part = part index := by simp
  obtain ⟨more, rfl⟩ := Nat.exists_eq_add_of_lt inside
  rw [Nat.add_assoc, List.range_add, List.flatMap_append, List.drop_left' front, Nat.add_comm more,
    List.range_add, List.map_append, List.flatMap_append, own]
  exact List.take_left' (sized index)

theorem ParityMatrix.wordAt_parityBytes (matrix : ParityMatrix) (message : Bytes) {index : Nat}
    (inside : index < matrix.code.parityBits / 64) :
    wordAt (matrix.parityBytes message) index = matrix.parityWord message index := by
  rw [wordAt, parityBytes, slice_flatMap (fun i => length_littleEndian 8 _) inside,
    ofNat_littleEndian]

@[simp] theorem length_xorBytes (first second : Bytes) :
    (xorBytes first second).length = min first.length second.length := List.length_zipWith

theorem bitAt_xorBytes {first second : Bytes} (size : first.length = second.length) (index : Nat) :
    bitAt (xorBytes first second) index = (bitAt first index ^^ bitAt second index) := by
  have byte : (xorBytes first second).getD (index / 8) 0 =
      first.getD (index / 8) 0 ^^^ second.getD (index / 8) 0 := by
    rw [xorBytes, List.getD_eq_getElem?_getD, List.getElem?_zipWith]
    by_cases inside : index / 8 < first.length
    · have also : index / 8 < second.length := size ▸ inside
      simp [inside, also]
    · have also : second.length ≤ index / 8 := by omega
      simp [Nat.not_lt.mp inside, also]
  rw [bitAt, byte, UInt8.toNat_xor, Nat.testBit_xor]
  rfl

theorem littleEndian_xor (count m n : Nat) :
    littleEndian count (m ^^^ n) = xorBytes (littleEndian count m) (littleEndian count n) := by
  induction count generalizing m n with
  | zero => rfl
  | succ count ih =>
    have byte : UInt8.ofNat (m ^^^ n) = UInt8.ofNat m ^^^ UInt8.ofNat n := by
      apply UInt8.toNat_inj.mp
      rw [UInt8.toNat_xor]
      exact Nat.xor_mod_two_pow (n := 8)
    rw [littleEndian, littleEndian, littleEndian, Nat.shiftRight_xor_distrib, ih, byte]
    rfl

theorem xorBytes_append {a b c d : Bytes} (size : a.length = b.length) :
    xorBytes (a ++ c) (b ++ d) = xorBytes a b ++ xorBytes c d := List.zipWith_append size

theorem xorBytes_flatMap {indices : List Nat} {first second : Nat → Bytes}
    (sized : ∀ i, (first i).length = (second i).length) :
    xorBytes (indices.flatMap first) (indices.flatMap second) =
      indices.flatMap fun i => xorBytes (first i) (second i) := by
  induction indices with
  | nil => rfl
  | cons i rest ih =>
    rw [List.flatMap_cons, List.flatMap_cons, List.flatMap_cons, xorBytes_append (sized i), ih]

namespace ParityMatrix

/-- The parity of a sum of messages is the sum of their parities. -/
theorem parityBytes_xor (matrix : ParityMatrix) {first second : Bytes}
    (size : first.length = matrix.code.messageBits / 8)
    (also : second.length = matrix.code.messageBits / 8) :
    matrix.parityBytes (xorBytes first second) =
      xorBytes (matrix.parityBytes first) (matrix.parityBytes second) := by
  have sum : (xorBytes first second).length = matrix.code.messageBits / 8 := by
    rw [length_xorBytes, size, also, Nat.min_self]
  rw [parityBytes, parityBytes, parityBytes, xorBytes_flatMap (by simp), List.flatMap_def,
    List.flatMap_def]
  congr 1
  apply List.map_congr_left
  intro index inside
  have inside := List.mem_range.mp inside
  rw [← littleEndian_xor, ← UInt64.toNat_xor, matrix.parityWord_eq sum inside,
    matrix.parityWord_eq size inside, matrix.parityWord_eq also inside, ← columnSum_xor]
  congr 3
  funext i
  exact bitAt_xorBytes (size.trans also.symm) i

/-- Matrices that agree in the columns of the message give the same parity. -/
theorem parityBytes_congr {matrix other : ParityMatrix} (code : other.code = matrix.code)
    {message : Bytes} (size : message.length = matrix.code.messageBits / 8)
    (columns : ∀ index < matrix.code.parityBits / 64, ∀ i < matrix.code.messageBits,
      other.words.getD (index * matrix.code.codeBits + i) 0 =
        matrix.words.getD (index * matrix.code.codeBits + i) 0) :
    other.parityBytes message = matrix.parityBytes message := by
  rw [parityBytes, parityBytes, code, List.flatMap_def, List.flatMap_def]
  congr 1
  apply List.map_congr_left
  intro index inside
  have inside := List.mem_range.mp inside
  rw [matrix.parityWord_eq size inside, other.parityWord_eq (code ▸ size) (code ▸ inside), code,
    columnSum_congr (fun _ _ => rfl) (columns index inside)]

end ParityMatrix

end PacketSpec.Wire
