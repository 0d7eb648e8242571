import PacketSpec.Codegen.Ident

/-! Hexadecimal numbers in the code: bit masks as they are written, and how a literal is read. -/
namespace PacketSpec.Codegen

/-- Groups of four characters, counted from the end. -/
def groupsOfFour (digits : List Char) : List (List Char) :=
  let rec go : (fuel : Nat) → List Char → List (List Char)
    | 0, _ => []
    | _ + 1, [] => []
    | fuel + 1, ds => ds.take 4 :: go fuel (ds.drop 4)
  ((go digits.length digits.reverse).map List.reverse).reverse

/-- The mask of the lowest `bits` bits. Masks that do not fit into 31 bits name their type. -/
def maskText (bits : Nat) (typeName : String) : String :=
  let digits := ['_'].intercalate (groupsOfFour (Text.hexDigits (maxOfWidth bits)))
  let suffix := if 31 < bits then '_' :: typeName.toList else []
  String.ofList ('0' :: 'x' :: digits ++ suffix)

def mask (bits : Nat) : Code := [.word (maskText bits "u64")]

structure HexLiteral where
  /-- The literal as it is written. -/
  text : String
  value : Nat
  /-- The name behind the digits, empty for none. -/
  suffix : String
  deriving DecidableEq, Repr

/-- The longest run of digits and underscores is the number, so a name that starts with letters
from a to f loses them to it. -/
def HexLiteral.ofText (text : String) : Except Fault HexLiteral :=
  let body := text.toList.drop 2
  let isNumberChar (c : Char) : Bool := Text.isHexDigit c || c == '_'
  let digits := (body.takeWhile isNumberChar).filter Text.isHexDigit
  let suffix := body.dropWhile isNumberChar
  if suffix.isEmpty || isIdentChars suffix then
    .ok ⟨text, Text.ofDigits 16 digits, String.ofList suffix⟩
  else .error (.invalidIdentifier text)

/-- The mask of the lowest `bits` bits, read back from its text. -/
def maskLiteral (bits : Nat) (typeName : String) : Except Fault HexLiteral :=
  HexLiteral.ofText (maskText bits typeName)

end PacketSpec.Codegen
