import PacketSpec.BitWindow
import PacketSpec.Codegen.Types

/-! The unit that reads structures. -/
namespace PacketSpec.Codegen

/-- The number of elements that the field at `index` holds. -/
def decoderCount (s : Struct) (index : Nat) : Except Fault Code := do
  match s.fields[index]? with
  | none => throw (.missingField s.id)
  | some field =>
    match field.fixed with
    | some value => return number value
    | none => return (← ident field.id) ++ code "as usize"

def fixedCheck (s : Struct) (field : Field) (value : Code) (expected : Nat) : Code :=
  let expected := hexNumber expected
  braces (
    code "let __value =" ++ value ++ code "; if __value !=" ++ expected ++ braces (
      code "return Err" ++ parens (
        code "DecodeError::InvalidFixedValue" ++ braces (
          code "packet:" ++ [.quoted s.id] ++ code ", field:" ++ [.quoted field.id] ++
          code ", expected:" ++ expected ++ code ", actual: __value,")) ++
      code ";"))

def binding (name value : Code) : Code := code "let" ++ name ++ code "=" ++ value ++ code ";"

def decodePacked (s : Struct) (packed : Packed Field) : Except Fault Code := do
  let field := packed.symbol
  let bits := mask packed.width
  let value :=
    if packed.shift == 0 then parens (code "__chunk &" ++ bits)
    else parens (parens (code "__chunk >>" ++ number packed.shift) ++ code "&" ++ bits)
  let id ← ident field.id
  match field.fixed, field.shape with
  | some expected, _ => return fixedCheck s field (value ++ code "as u64") expected
  | none, .enum typeId =>
    return binding id ((← ident typeId) ++ code "::from" ++ parens (value ++ code "as u64"))
  | none, _ =>
    return binding id (value ++ if field.seq then code "as u64" else code "as u8")

def decodeChunk (s : Struct) (chunk : Chunk Field) : Except Fault Code := do
  let get ← getInteger chunk.width false
  let fields ← chunk.fields.mapM (decodePacked s)
  return binding (code "__chunk") get ++ fields.flatten

def decodeElement (field : Field) : Except Fault Code := do
  match field.shape with
  | .scalar signed => getInteger field.width signed
  | .rational => return code "__r.get_rational()"
  | .struct typeId => return (← ident typeId) ++ code "::decode_from(__r)?"
  | .enum typeId =>
    let typeId ← ident typeId
    let get ← getInteger field.width false
    return typeId ++ code "::from" ++ parens (get ++ code "as u64")
  | _ => throw (.unsupportedShape field.id)

def decodeStruct (s : Struct) (field : Field) (id typeId : Code) : Except Fault Code := do
  let element := typeId ++ code "::decode_from(__r)?"
  match field.repetition with
  | .none => return binding id element
  | .constant count =>
    return code "let mut" ++ id ++ code ":" ++
      brackets (typeId ++ code ";" ++ number count) ++
      code "= std::array::from_fn" ++ parens (code "|_|" ++ typeId ++ code "::default()") ++
      code "; for __elem in" ++ id ++ code ".iter_mut()" ++
      braces (code "*__elem =" ++ element ++ code ";")
  | .fieldRef index =>
    let count ← decoderCount s index
    return binding id (braces (
      binding (code "__count") count ++
      code "let mut __elems = Vec::with_capacity(__count.min(__r.remaining()));" ++
      code "for _ in 0..__count" ++ braces (
        code "if __r.remaining() == 0" ++ braces (code "break;") ++
        code "__elems.push" ++ parens element ++ code ";") ++
      code "__elems"))

def decodeElements (s : Struct) (field : Field) (id : Code) : Except Fault Code := do
  let get ← decodeElement field
  match field.repetition with
  | .none => return binding id get
  | .constant count =>
    if field.isByteBuffer then
      return binding id (code "__r.get_array::<" ++ number count ++ code ">()")
    else return binding id (code "std::array::from_fn" ++ parens (code "|_|" ++ get))
  | .fieldRef index =>
    let count ← decoderCount s index
    if field.isByteBuffer then
      return binding id (code "__r.get_bytes" ++ parens count)
    else
      return binding id (braces (
        code "let __count: usize =" ++ count ++ code ";" ++
        binding (code "__count")
          (code "__count.min(__r.remaining() /" ++ number (field.width / 8) ++ code ")") ++
        code "(0..__count).map" ++ parens (code "|_|" ++ get) ++ code ".collect::<Vec<_>>()"))

def decodeDescriptor (s : Struct) (field : Field) (id : Code) : Except Fault Code := do
  match field.fixed with
  | some expected =>
    if field.width == 8 then
      return fixedCheck s field (code "(__r.get_u8() as u64) << 8") expected
    else
      return fixedCheck s field ((← getInteger field.width false) ++ code "as u64") expected
  | none =>
    if field.width == 8 then
      return binding id
        (code "PktDescriptor(((__r.get_u8() as u32) << 8) | PktDescriptor::FLAG_LSB_BITMASK)")
    else if field.width == 16 then
      return binding id (code "PktDescriptor(__r.get_u16() as u32)")
    else return binding id (code "PktDescriptor(__r.get_u32())")

def decodeStatements (s : Struct) (field : Field) (id : Code) : Except Fault Code := do
  match field.shape with
  | .scalar _ =>
    match field.fixed with
    | some expected =>
      return fixedCheck s field ((← getInteger field.width false) ++ code "as u64") expected
    | none =>
      if field.seq then
        return binding id ((← getInteger field.width false) ++ code "as u64")
      else decodeElements s field id
  | .struct typeId => decodeStruct s field id (← ident typeId)
  | .rational | .enum _ => decodeElements s field id
  | .bytes => return binding id (code "__r.get_array::<" ++ number (field.width / 8) ++ code ">()")
  | .string capacity =>
    return binding id (code "__r.get_fixed_str::<" ++ number capacity ++ code ">()")
  | .descriptor => decodeDescriptor s field id
  | .padding =>
    match field.repetition with
    | .fieldRef index =>
      let size := byteLength (← decoderCount s index) (field.width / 8)
      return code "__r.skip" ++ parens size ++ code ";"
    | _ => return code "__r.skip" ++ parens (number (((← field.wireBits?).getD 0) / 8)) ++ code ";"
  | .parity ldpc => return code "__r.skip" ++ parens (number (ldpc.parityBits / 8)) ++ code ";"
  | .payload =>
    let size ← match field.repetition with
      | .none => pure (code "__r.remaining()")
      | .constant count => do pure (number ((← Size.mul count field.width) / 8))
      | .fieldRef index => do pure (byteLength (← decoderCount s index) (field.width / 8))
    return binding id (code "__r.get_bytes" ++ parens size)
  | .bitfield => throw (.unsupportedShape field.id)

structure DecoderDraft where
  statements : Code := []
  window : BitWindow Field
  /-- The name that the payload is bound to. -/
  payload : Option Code := none

def DecoderDraft.emit (draft : DecoderDraft) (statements : Code) : DecoderDraft :=
  { draft with statements := draft.statements ++ statements }

def decodeField (s : Struct) (draft : DecoderDraft) (field : Field) :
    Except Fault DecoderDraft := do
  if field.isPacked then
    match ← draft.window.push field field.width with
    | (.error _, _) => throw (.invalidLayout s.id)
    | (.ok none, window) => return { draft with window }
    | (.ok (some chunk), window) => return { draft with window }.emit (← decodeChunk s chunk)
  else
    let id ← ident field.id
    let statements ← decodeStatements s field id
    let payload := if field.shape == .payload then some id else draft.payload
    return { draft with payload }.emit statements

/-- The structure made of the names bound to its stored fields. -/
def constructor (s : Struct) (name : Code) : Except Fault Code := do
  let fields ← s.storedFields.mapM fun f => ident f.id
  return name ++ braces (joinWith ',' fields)

def decodeImpl (model : Model) (window : Nat) (s : Struct) : Except Fault Code := do
  let draft ← s.fields.foldlM (decodeField s) { window := BitWindow.empty window }
  let name ← ident s.id
  let value ← constructor s name
  if model.substructs.contains s.id then
    return code "impl DecodeFrom for" ++ name ++ braces (
      code "fn decode_from(__r: &mut Reader<'_>) -> Result<Self, DecodeError>" ++
      braces (draft.statements ++ code "Ok" ++ parens value))
  else
    let payload := match draft.payload with
      | some id => code "Some" ++ parens id
      | none => code "None"
    return code "impl Decode for" ++ name ++ braces (
      code "fn decode(buf: &Bytes) -> Result<Decoded<Self>, DecodeError>" ++
      braces (
        code "let mut __reader = Reader::new(buf); let __r = &mut __reader;" ++
        draft.statements ++
        code "Ok" ++ parens (code "Decoded" ++ braces (
          code "packet:" ++ value ++ code ", payload:" ++ payload ++ code ", len: __r.offset()"))))

def decoderUnit (model : Model) (window : Nat) : Except Fault Code :=
  List.flatten <$> model.structs.mapM (decodeImpl model window)

end PacketSpec.Codegen
