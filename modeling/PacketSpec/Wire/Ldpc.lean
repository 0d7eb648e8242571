import PacketSpec.Size
import PacketSpec.Wire.Bytes
import PacketSpec.Wire.Error

/-!
Parity bits of low-density parity-check codes. A code adds `codeBits - messageBits` parity bits to
a message; a parity matrix gives each 64-bit parity word one column word per bit of the code.
-/
namespace PacketSpec

structure LdpcCode where
  codeBits : Nat
  messageBits : Nat
  deriving DecidableEq, Repr

namespace LdpcCode

def parityBits (code : LdpcCode) : Nat := code.codeBits - code.messageBits

/-- Message and parity are whole bytes, and there is some parity. -/
def isByteAligned (code : LdpcCode) : Bool :=
  code.messageBits < code.codeBits && code.messageBits % 8 == 0 && code.parityBits % 8 == 0

end LdpcCode

namespace Wire

def unsupported (code : LdpcCode) : EncodeError :=
  .unsupportedLdpcCode code.codeBits code.messageBits

/-- Computes the parity of a message, as many bytes as asked for. -/
structure LdpcEncoder where
  parity : LdpcCode → (message : Bytes) → (size : Nat) → Except EncodeError Bytes
  length_parity : ∀ code message size bytes,
    parity code message size = .ok bytes → bytes.length = size

structure ParityMatrix where
  code : LdpcCode
  words : List UInt64
  parity_pos : code.parityBits ≠ 0
  parity_words : code.parityBits % 64 = 0
  message_bytes : code.messageBits % 8 = 0
  length_words : words.length = code.parityBits / 64 * code.codeBits

namespace ParityMatrix

/-- The matrix of a code, if it has one of this many words. -/
def ofWords? (code : LdpcCode) (words : List UInt64) : Except Fault (Option ParityMatrix) :=
  if h : code.parityBits ≠ 0 ∧ code.parityBits % 64 = 0 ∧ code.messageBits % 8 = 0 then do
    let _ ← Size.mul (code.parityBits / 64) code.codeBits
    if hw : words.length = code.parityBits / 64 * code.codeBits then
      return some ⟨code, words, h.1, h.2.1, h.2.2, hw⟩
    else return none
  else return none

/-- Adds up the columns that the set bits of a byte select, least significant bit first. -/
def selectByte (byte : UInt8) (columns : List UInt64) : UInt64 :=
  columns.zipIdx.foldl (fun word (column, k) =>
    if byte.toNat.testBit k then word ^^^ column else word) 0

/-- Adds up the columns that the set bits of a message select, eight columns a byte. -/
def selectMessage : Bytes → List UInt64 → UInt64
  | [], _ => 0
  | byte :: rest, columns =>
    selectByte byte (columns.take 8) ^^^ selectMessage rest (columns.drop 8)

def row (matrix : ParityMatrix) (index : Nat) : List UInt64 :=
  (matrix.words.drop (index * matrix.code.codeBits)).take matrix.code.codeBits

def parityWord (matrix : ParityMatrix) (message : Bytes) (index : Nat) : UInt64 :=
  selectMessage (message.take (matrix.code.messageBits / 8)) (matrix.row index)

def parityBytes (matrix : ParityMatrix) (message : Bytes) : Bytes :=
  (List.range (matrix.code.parityBits / 64)).flatMap fun index =>
    littleEndian 8 (matrix.parityWord message index).toNat

theorem length_parityBytes (matrix : ParityMatrix) (message : Bytes) :
    (matrix.parityBytes message).length = matrix.code.parityBits / 8 := by
  have words := matrix.parity_words
  simp only [parityBytes, List.length_flatMap, length_littleEndian, List.map_const',
    List.length_range, List.sum_replicate_nat]
  omega

/-- Refuses other codes, messages that are too short and a parity of another size. -/
def parity (matrix : ParityMatrix) (code : LdpcCode) (message : Bytes) (size : Nat) :
    Except EncodeError Bytes :=
  if code = matrix.code ∧ code.messageBits / 8 ≤ message.length ∧ size = code.parityBits / 8 then
    .ok (matrix.parityBytes message)
  else .error (unsupported code)

def encoder (matrix : ParityMatrix) : LdpcEncoder where
  parity := matrix.parity
  length_parity := by
    intro code message size bytes h
    simp only [parity] at h
    split at h
    · next fits =>
      injection h with h
      rw [← h, length_parityBytes, fits.2.2, fits.1]
    · cases h

/-- The first matrix of a code computes its parity. -/
def encoderOfList (matrices : List ParityMatrix) : LdpcEncoder where
  parity code message size :=
    match matrices.find? (·.code == code) with
    | some matrix => matrix.parity code message size
    | none => .error (unsupported code)
  length_parity := by
    intro code message size bytes h
    split at h
    · next matrix _ => exact matrix.encoder.length_parity code message size bytes h
    · cases h

end ParityMatrix

end Wire

end PacketSpec
