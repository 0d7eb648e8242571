import PacketSpec.Wire.Ldpc
import PacketSpec.Wire.Reader

/-!
A cursor over an output buffer. A value that does not fit whole is not written and leaves the
cursor where it is.
-/
namespace PacketSpec.Wire

structure Writer where
  buffer : Bytes
  offset : Nat := 0
  ldpc : Option LdpcEncoder := none

abbrev Write := ExceptT EncodeError (StateM Writer)

namespace Writer

def remaining (writer : Writer) : Nat := writer.buffer.length - writer.offset

def written (writer : Writer) : Bytes := writer.buffer.take writer.offset

/-- Replaces the bytes of a buffer from `start` on. -/
def splice (buffer : Bytes) (start : Nat) (bytes : Bytes) : Bytes :=
  buffer.take start ++ bytes ++ buffer.drop (start + bytes.length)

/-- Moves the cursor over `size` bytes and returns where they start. -/
def reserve (size : Nat) : Write Nat := do
  let writer ← get
  if writer.remaining < size then throw (.bufferTooSmall size writer.remaining)
  set { writer with offset := writer.offset + size }
  return writer.offset

def put (bytes : Bytes) : Write Unit := do
  let start ← reserve bytes.length
  modify fun writer => { writer with buffer := splice writer.buffer start bytes }

def unsigned (size n : Nat) : Write Unit := put (bigEndian size n)

def signed (size : Nat) (n : Int) : Write Unit := put (bigEndian size (ofSigned (8 * size) n))

def rational (value : Rational) : Write Unit :=
  put (bigEndian 4 (ofSigned 32 value.num) ++ bigEndian 4 (ofSigned 32 value.den))

def fixedText {capacity : Nat} (text : FixedText capacity) : Write Unit := put text.raw

def zeros (size : Nat) : Write Unit := do
  let start ← reserve size
  modify fun writer =>
    { writer with buffer := splice writer.buffer start (List.replicate size 0) }

/-- Writes the parity of the message right before the cursor, or zeros without an encoder. The
place of the parity is taken before the encoder is asked. -/
def parity (code : LdpcCode) : Write Unit := do
  if !code.isByteAligned then throw (unsupported code)
  let messageSize := code.messageBits / 8
  let paritySize := code.parityBits / 8
  if (← get).offset < messageSize then throw (unsupported code)
  let start ← reserve paritySize
  let writer ← get
  let bytes ← match writer.ldpc with
    | some encoder =>
      let message := (writer.buffer.drop (start - messageSize)).take messageSize
      ExceptT.mk (pure (encoder.parity code message paritySize))
    | none => pure (List.replicate paritySize 0)
  set { writer with buffer := splice writer.buffer start bytes }

end Writer

end PacketSpec.Wire
