import PacketSpec.Text.Basic

/-! JSON values and their indented text. -/
namespace PacketSpec

inductive Json where
  | null
  | bool (value : Bool)
  | number (value : Nat)
  | string (value : String)
  | list (items : List Json)
  | object (entries : List (String × Json))

namespace Json

def ofOption {α : Type} (render : α → Json) : Option α → Json
  | none => .null
  | some a => render a

def escapedChar (c : Char) : List Char :=
  if c == '"' || c == '\\' then ['\\', c]
  else if c == '\x08' then ['\\', 'b']
  else if c == '\x0c' then ['\\', 'f']
  else if c == '\n' then ['\\', 'n']
  else if c == '\r' then ['\\', 'r']
  else if c == '\t' then ['\\', 't']
  else if c.toNat < 0x20 then ['\\', 'u'] ++ Text.padZeros 4 (Text.hexDigits c.toNat)
  else [c]

def escaped (text : String) : List Char := ['"'] ++ text.toList.flatMap escapedChar ++ ['"']

def indentation (depth : Nat) : List Char := '\n' :: List.replicate (2 * depth) ' '

/-- Items one to a line, between brackets; brackets without items stand together. -/
def enclosed (depth : Nat) (opening closing : Char) (items : List (List Char)) : List Char :=
  if items.isEmpty then [opening, closing]
  else
    let inner := indentation (depth + 1)
    [opening] ++ inner ++ (',' :: inner).intercalate items ++ indentation depth ++ [closing]

mutual

def renderAt (depth : Nat) : Json → List Char
  | .null => "null".toList
  | .bool true => "true".toList
  | .bool false => "false".toList
  | .number n => Nat.toDigits 10 n
  | .string s => escaped s
  | .list items => enclosed depth '[' ']' (renderItems depth items)
  | .object entries => enclosed depth '\x7b' '\x7d' (renderEntries depth entries)

def renderItems (depth : Nat) : List Json → List (List Char)
  | [] => []
  | item :: rest => renderAt (depth + 1) item :: renderItems depth rest

def renderEntries (depth : Nat) : List (String × Json) → List (List Char)
  | [] => []
  | (key, value) :: rest =>
    (escaped key ++ [':', ' '] ++ renderAt (depth + 1) value) :: renderEntries depth rest

end

/-- The text of a value, each level indented by two spaces. -/
def pretty (json : Json) : String := String.ofList (renderAt 0 json)

end Json

end PacketSpec
