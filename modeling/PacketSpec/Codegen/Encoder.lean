import PacketSpec.BitWindow
import PacketSpec.Codegen.Types

/-! The unit that writes structures. -/
namespace PacketSpec.Codegen

def rangeCheck (value : Code) (width : Nat) (packet field : String) : Code :=
  let maximum := mask width
  code "if" ++ value ++ code ">" ++ maximum ++ braces (
    code "return Err" ++ parens (
      code "EncodeError::InvalidScalarValue" ++ braces (
        code "packet:" ++ [.quoted packet] ++ code ", field:" ++ [.quoted field] ++
        code ", value:" ++ value ++ code "as u64, maximum_value:" ++ maximum ++ code "as u64,")))

structure EncoderDraft where
  /-- Bytes of the fields of known size. -/
  constantSize : Nat := 0
  /-- The sizes of the other fields. -/
  variableSizes : List Code := []
  statements : Code := []
  window : BitWindow Code

namespace EncoderDraft

def emit (draft : EncoderDraft) (statements : Code) : EncoderDraft :=
  { draft with statements := draft.statements ++ statements }

def addConstant (draft : EncoderDraft) (bytes : Nat) : EncoderDraft :=
  { draft with constantSize := draft.constantSize + bytes }

def addVariable (draft : EncoderDraft) (size : Code) : EncoderDraft :=
  { draft with variableSizes := draft.variableSizes ++ [size] }

def size (draft : EncoderDraft) : Code :=
  let constant := number draft.constantSize
  if draft.variableSizes.isEmpty then constant
  else if draft.constantSize == 0 then joinWith '+' draft.variableSizes
  else constant ++ code "+" ++ joinWith '+' draft.variableSizes

end EncoderDraft

/-- The number of elements that the field at `index` holds. -/
def encoderCount (s : Struct) (index : Nat) : Except Fault Code := do
  match s.fields[index]? with
  | none => throw (.missingField s.id)
  | some field =>
    match field.fixed with
    | some value => return number value
    | none => return code "self." ++ (← ident field.id) ++ code "as usize"

def chunkTerm (chunkType : Code) (packed : Packed Code) : Code :=
  let term := parens (packed.symbol ++ code "as" ++ chunkType)
  if packed.shift == 0 then term else parens (term ++ code "<<" ++ number packed.shift)

def encodeChunk (draft : EncoderDraft) (chunk : Chunk Code) : Except Fault EncoderDraft := do
  let chunkType ← integer chunk.width false
  let terms := chunk.fields.map (chunkTerm chunkType)
  let put ← putInteger chunk.width false (joinWith '|' terms)
  return (draft.emit put).addConstant (chunk.width / 8)

def encodePacked (s : Struct) (draft : EncoderDraft) (field : Field) :
    Except Fault EncoderDraft := do
  let id ← ident field.id
  let held := code "self." ++ id
  let isEnum := field.shape.isEnum
  let value := match field.fixed with
    | some value => hexNumber value
    | none =>
      if isEnum then code "u64::from" ++ parens held
      else if field.seq then parens (held ++ code "&" ++ mask field.width)
      else held
  let draft :=
    if field.fixed.isNone && (isEnum || !field.seq) then
      draft.emit (rangeCheck value field.width s.id field.id)
    else draft
  match ← draft.window.push value field.width with
  | (.error _, _) => throw (.invalidLayout s.id)
  | (.ok none, window) => return { draft with window }
  | (.ok (some chunk), window) => encodeChunk { draft with window } chunk

def encodeElement (s : Struct) (field : Field) (value : Code) : Except Fault Code := do
  match field.shape with
  | .scalar signed => putInteger field.width signed value
  | .rational => return code "w.put_rational" ++ parens value ++ code "?;"
  | .struct _ => return value ++ code ".encode(w)?;"
  | .enum _ =>
    let value := code "u64::from" ++ parens value
    let fieldType ← integer field.width false
    let check := if field.width < 64 then rangeCheck value field.width s.id field.id else []
    let put ← putInteger field.width false (value ++ code "as" ++ fieldType)
    return check ++ put
  | _ => throw (.unsupportedShape field.id)

def encodeElements (s : Struct) (field : Field) (held : Code) : Except Fault Code := do
  match field.repetition with
  | .none => encodeElement s field held
  | _ =>
    let elem := if field.shape.isStruct then code "elem" else code "*elem"
    let body ← encodeElement s field elem
    return code "for elem in &" ++ held ++ braces body

def encodeStatements (s : Struct) (field : Field) (held : Code) : Except Fault Code := do
  match field.shape with
  | .scalar _ =>
    match field.fixed with
    | some value => putInteger field.width false (hexNumber value)
    | none =>
      if field.seq then
        putInteger field.width false (held ++ code "as" ++ (← integer field.width false))
      else if field.isByteBuffer && field.repetition != .none then
        return code "w.put_slice(&" ++ held ++ code ")?;"
      else encodeElements s field held
  | .rational | .struct _ | .enum _ => encodeElements s field held
  | .bytes => return code "w.put_slice(&" ++ held ++ code ")?;"
  | .string _ => return code "w.put_fixed_str(&" ++ held ++ code ")?;"
  | .descriptor =>
    match field.fixed with
    | some value =>
      putInteger field.width false (hexNumber (if field.width == 8 then value >>> 8 else value))
    | none =>
      if field.width == 8 then return code "w.put_u8((" ++ held ++ code ".code() >> 8) as u8)?;"
      else if field.width == 16 then return code "w.put_u16(" ++ held ++ code ".code())?;"
      else return code "w.put_u32(u32::from(" ++ held ++ code ".code()))?;"
  | .padding =>
    match field.repetition with
    | .fieldRef index =>
      let size := byteLength (← encoderCount s index) (field.width / 8)
      return code "w.put_zeros" ++ parens size ++ code "?;"
    | _ =>
      let size := ((← field.wireBits?).getD 0) / 8
      return code "w.put_zeros" ++ parens (number size) ++ code "?;"
  | .parity ldpc =>
    return code "w.put_ldpc" ++
      parens (number ldpc.codeBits ++ code "," ++ number ldpc.messageBits) ++ code "?;"
  | .payload => return []
  | .bitfield => throw (.unsupportedShape field.id)

def encodeSize (s : Struct) (draft : EncoderDraft) (field : Field) (held : Code) :
    Except Fault EncoderDraft := do
  if field.shape == .payload then return draft
  if field.shape.isStruct then
    return draft.addVariable (held ++ match field.repetition with
      | .none => code ".encoded_len()"
      | _ => code ".iter().map(Encode::encoded_len).sum::<usize>()")
  match ← field.wireBits? with
  | some bits => return draft.addConstant (bits / 8)
  | none =>
    let count ← match field.repetition with
      | .fieldRef index =>
        if field.isStored then pure (held ++ code ".len()") else encoderCount s index
      | _ => pure (held ++ code ".len()")
    return draft.addVariable (byteLength count (field.width / 8))

def countCheck (s : Struct) (field : Field) (held : Code) : Except Fault Code := do
  match field.repetition with
  | .fieldRef index =>
    if !field.isStored then return []
    let count ← encoderCount s index
    return code "if" ++ held ++ code ".len() !=" ++ count ++ braces (
      code "return Err" ++ parens (
        code "EncodeError::InvalidArrayCount" ++ braces (
          code "packet:" ++ [.quoted s.id] ++ code ", field:" ++ [.quoted field.id] ++
          code ", count:" ++ held ++ code ".len(), expected:" ++ count ++ code ",")) ++
      code ";")
  | _ => return []

def encodeField (s : Struct) (draft : EncoderDraft) (field : Field) :
    Except Fault EncoderDraft := do
  if field.isPacked then encodePacked s draft field
  else
    let held := code "self." ++ (← ident field.id)
    let draft ← encodeSize s draft field held
    let check ← countCheck s field held
    let statements ← encodeStatements s field held
    return draft.emit (check ++ statements)

def encodeImpl (window : Nat) (s : Struct) : Except Fault Code := do
  let draft ← s.fields.foldlM (encodeField s) { window := BitWindow.empty window }
  let name ← ident s.id
  return code "impl Encode for" ++ name ++ braces (
    code "fn encoded_len(&self) -> usize" ++ braces draft.size ++
    code "fn encode(&self, w: &mut Writer<'_>) -> Result<(), EncodeError>" ++
    braces (draft.statements ++ code "Ok(())"))

def encoderUnit (model : Model) (window : Nat) : Except Fault Code :=
  List.flatten <$> model.structs.mapM (encodeImpl window)

end PacketSpec.Codegen
