import PacketSpec.Text.Printable
import PacketSpec.Text.Shortest

/-! What can be wrong with the text of a document, and where. -/
namespace PacketSpec.Document

/-- A JSON value that stands where another kind of value belongs. -/
inductive Found where
  | null
  | bool (value : Bool)
  | integer (value : Int)
  | float (value : Float)
  | string (value : String)
  | sequence
  | map

def Found.text : Found → String
  | .null => "null"
  | .bool true => "boolean `true`"
  | .bool false => "boolean `false`"
  | .integer n =>
    let digits := Text.decimal n.natAbs
    if n < 0 then s!"integer `-{digits}`" else s!"integer `{digits}`"
  | .float x => s!"floating point `{Text.ofFloat x}`"
  | .string s => s!"string {Text.quoted s}"
  | .sequence => "sequence"
  | .map => "map"

inductive Cause where
  | eofInValue
  | eofInObject
  | eofInList
  | eofInString
  | expectedColon
  | expectedListEnd
  | expectedObjectEnd
  | expectedLiteral
  | expectedValue
  | keyNotString
  | trailingComma
  | trailingCharacters
  | invalidEscape
  | invalidNumber
  | numberOutOfRange
  | controlCharacter
  | loneSurrogate
  | brokenSurrogate
  | invalidType (found : Found) (expected : String)
  | invalidLength (length : Nat) (expected : String)
  | missingField (name : String)
  | duplicateField (name : String)
  | unknownField (name : String) (known : List String)

def Cause.message : Cause → String
  | .eofInValue => "EOF while parsing a value"
  | .eofInObject => "EOF while parsing an object"
  | .eofInList => "EOF while parsing a list"
  | .eofInString => "EOF while parsing a string"
  | .expectedColon => "expected `:`"
  | .expectedListEnd => "expected `,` or `]`"
  | .expectedObjectEnd => "expected `,` or `\x7d`"
  | .expectedLiteral => "expected ident"
  | .expectedValue => "expected value"
  | .keyNotString => "key must be a string"
  | .trailingComma => "trailing comma"
  | .trailingCharacters => "trailing characters"
  | .invalidEscape => "invalid escape"
  | .invalidNumber => "invalid number"
  | .numberOutOfRange => "number out of range"
  | .controlCharacter => "control character (\\u0000-\\u001F) found while parsing a string"
  | .loneSurrogate => "lone leading surrogate in hex escape"
  | .brokenSurrogate => "unexpected end of hex escape"
  | .invalidType found expected => s!"invalid type: {found.text}, expected {expected}"
  | .invalidLength length expected => s!"invalid length {Text.decimal length}, expected {expected}"
  | .missingField name => s!"missing field `{name}`"
  | .duplicateField name => s!"duplicate field `{name}`"
  | .unknownField name known =>
    let names := ", ".intercalate (known.map fun k => s!"`{k}`")
    s!"unknown field `{name}`, expected one of {names}"

def byteCount (text : List Char) : Nat := text.foldr (fun c size => c.utf8Size + size) 0

/-- Lines count from one; a column is the number of bytes of the line before a position. -/
structure Location where
  line : Nat
  column : Nat
  deriving DecidableEq, Repr

/-- The location after `bytes` bytes of a text, from a location on. -/
def locate (location : Location) (bytes : Nat) : List Char → Location
  | [] => location
  | c :: rest =>
    if bytes < c.utf8Size then { location with column := location.column + bytes }
    else if c == '\n' then locate ⟨location.line + 1, 0⟩ (bytes - 1) rest
    else locate { location with column := location.column + c.utf8Size } (bytes - c.utf8Size) rest

/-- A problem with the text of a document: its label and the byte that it points at. -/
structure Problem where
  label : String
  offset : Nat
  deriving DecidableEq, Repr

/-- The byte before the position counts as the place of the problem, except at the start of a
line. -/
def Problem.of (text : String) (cause : Cause) (position : Nat) : Problem :=
  let location := locate ⟨1, 0⟩ position text.toList
  let line := Text.decimal location.line
  let column := Text.decimal location.column
  { label := s!"{cause.message} at line {line} column {column}"
    offset := position - location.column + (location.column - 1) }

end PacketSpec.Document
