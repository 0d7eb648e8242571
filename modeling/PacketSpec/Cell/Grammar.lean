import PacketSpec.Cell.Basic
import PacketSpec.Cell.Scan

/-! The grammar of the cells of a specification table. -/
namespace PacketSpec.Cell.Grammar

open Scan

def isNameChar (c : Char) : Bool := c.isAlphanum || c == '_'

def isKeyChar (c : Char) : Bool := c.isAlphanum || c == '_' || c == '-'

def digits : Scan Numeral := many1 Char.isDigit

def hexadecimal : Scan Numeral := do
  let mark ← (do exactly "0x"; pure 'x') <|> (do exactly "0X"; pure 'X')
  let ds ← many1 Text.isHexDigit
  return '0' :: mark :: ds

def integer : Scan Numeral := hexadecimal <|> digits

/-- A name of letters, digits and underscores that does not start with a digit. -/
def identifier : Scan String := do
  let name ← many1 isNameChar
  if (name.head?.map Char.isDigit).getD true then failure else return String.ofList name

def key : Scan String := String.ofList <$> many1 isKeyChar

/-- A number sign and a key; the sign is kept. -/
def anchor : Scan String := do
  exactly "#"
  let name ← many1 isKeyChar
  return String.ofList ('#' :: name)

/-- A field's name between `[=` and `=]`. -/
def fieldRef : Scan String := do
  exactly "[="
  blanks
  let name ← identifier
  symbol "=]"
  return name

def multiplier : Scan (MultiplierOf Numeral) := do
  let count ← (MultiplierOf.count <$> digits) <|> (MultiplierOf.field <$> fieldRef)
  symbol "*"
  return count

def typeKind : Scan TypeKind :=
  (do exactly "u"; pure .unsigned) <|> (do exactly "i"; pure .signed) <|>
    (do exactly "b"; pure .bits) <|> (do exactly "R"; pure .rational)

def typeCell : Scan (TypeOf Numeral) := do
  symbol? "'"
  blanks
  let multiplier ← option multiplier
  blanks
  let kind ← typeKind
  symbol "("
  blanks
  let width ← digits
  symbol ")"
  symbol? "'"
  finish
  return { multiplier, kind, width }

def nameCell : Scan String := do
  symbol? "'"
  blanks
  let name ← fieldRef <|> identifier
  symbol? "'"
  finish
  return name

/-- A number with its optional square brackets, quotes and value brackets. -/
def codeValue : Scan Numeral := do
  discard (option (exactly "["))
  symbol? "'"
  symbol? "[="
  blanks
  let n ← integer
  symbol? "=]"
  symbol? "'"
  symbol? "]"
  return n

def codeCell : Scan Numeral := do
  blanks
  let n ← codeValue
  finish
  return n

def codeRangeCell : Scan (Numeral × Option Numeral) := do
  blanks
  let start ← codeValue
  blanks
  let stop ← option (do exactly ":"; blanks; codeValue)
  finish
  return (start, stop)

def anchorCell : Scan String := do
  symbol? "[["
  blanks
  let name ← anchor
  symbol? "]]"
  finish
  return name

def ldpcMarker : Scan (MarkerOf Numeral) := do
  exactly "LDPC"
  symbol "("
  blanks
  let codeBits ← digits
  symbol ","
  blanks
  let messageBits ← digits
  symbol ")"
  return .ldpc codeBits messageBits

def enumMarker : Scan (MarkerOf Numeral) := do
  exactly "enum"
  symbol? "\x7b"
  blanks
  let name ← key
  symbol? "\x7d"
  return .enum name

/-- A key behind the anchor that it links to. -/
def structLink : Scan String := do
  exactly "[["
  blanks
  discard anchor
  symbol "|"
  blanks
  let name ← key
  symbol "]]"
  return name

def structMarker : Scan (MarkerOf Numeral) := do
  exactly "struct"
  symbol? "\x7b"
  blanks
  let name ← structLink <|> key
  symbol? "\x7d"
  return .struct name

def templateMarker : Scan (MarkerOf Numeral) := do
  exactly "[["
  blanks
  let name ← anchor
  symbol "]]"
  return .template name

def payloadMarker : Scan (MarkerOf Numeral) := do
  inAnyCase "payload"
  return .payload

def fixedMarker : Scan (MarkerOf Numeral) := do
  discard (option (exactly "[="))
  blanks
  let n ← integer
  symbol? "=]"
  return .fixed n

/-- Takes the whole rest of a cell that speaks of a string. -/
def stringMarker : Scan (MarkerOf Numeral) := fun text =>
  if Text.isPartOf "string".toList text then some (.string, []) else none

def marker : Scan (MarkerOf Numeral) :=
  ldpcMarker <|> enumMarker <|> structMarker <|> templateMarker <|> payloadMarker <|>
    fixedMarker <|> stringMarker

def markerCell : Scan (MarkerOf Numeral) := do
  symbol? "'"
  blanks
  let found ← option marker
  symbol? "'"
  finish
  return found.getD .none

end PacketSpec.Cell.Grammar
