import PacketSpec.Codegen.Token
import PacketSpec.Size
import PacketSpec.Text.Xid

/-! Names as Rust identifiers. -/
namespace PacketSpec.Codegen

/-- Words that are identifiers only behind `r#`. -/
def keywords : List String :=
  ["as", "break", "const", "continue", "else", "enum", "extern", "false", "fn", "for", "if",
    "impl", "in", "let", "loop", "match", "mod", "move", "mut", "pub", "ref", "return", "static",
    "struct", "trait", "true", "type", "unsafe", "use", "where", "while", "async", "await", "dyn",
    "abstract", "become", "box", "do", "final", "macro", "override", "priv", "typeof", "unsized",
    "virtual", "yield", "try"]

/-- Words that not even `r#` turns into identifiers. -/
def pathKeywords : List String := ["self", "Self", "super", "crate"]

def isIdentChars : List Char → Bool
  | [] => false
  | c :: rest => (c == '_' || Text.isXidStart c) && rest.all Text.isXidContinue

/-- An identifier as it stands in the code, with or without `r#`. -/
def lexicalIdent (text : String) : Except Fault String :=
  match text.toList with
  | 'r' :: '#' :: name =>
    let raw := String.ofList name
    if isIdentChars name && raw != "_" && !pathKeywords.contains raw then .ok text
    else .error (.invalidIdentifier text)
  | name => if isIdentChars name then .ok text else .error (.invalidIdentifier text)

/-- The identifier of a name; keywords are made identifiers. -/
def identText (name : String) : Except Fault String :=
  if keywords.contains name then lexicalIdent ("r#" ++ name)
  else if pathKeywords.contains name then lexicalIdent (name ++ "_")
  else lexicalIdent name

def ident (name : String) : Except Fault Code := do return [.word (← identText name)]

/-- A name that stands in the code unchanged. -/
def plainIdent (name : String) : Except Fault Code := do return [.word (← lexicalIdent name)]

end PacketSpec.Codegen
