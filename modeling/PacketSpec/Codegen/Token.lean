import PacketSpec.Text.Basic

/-!
Generated code as a list of tokens. A fixed fragment is written as text and split into tokens;
brackets are put around fragments by functions.
-/
namespace PacketSpec.Codegen

inductive Token where
  /-- An identifier, a keyword or a number. -/
  | word (text : String)
  /-- One character of punctuation, or a bracket. -/
  | mark (c : Char)
  /-- A string literal, by its value. -/
  | quoted (value : String)
  deriving DecidableEq, Repr

abbrev Code := List Token

def quotedText (value : String) : String :=
  let escape (c : Char) : List Char := if c == '"' || c == '\\' then ['\\', c] else [c]
  String.ofList (['"'] ++ value.toList.flatMap escape ++ ['"'])

def Token.text : Token → String
  | .word text => text
  | .mark c => c.toString
  | .quoted value => quotedText value

/-- The tokens with one space between any two. -/
def Code.text (code : Code) : String := " ".intercalate (code.map Token.text)

def isWordChar (c : Char) : Bool := c.isAlphanum || c == '_'

def wordIfAny (word : List Char) : Code :=
  if word.isEmpty then [] else [.word (String.ofList word)]

/-- Splits a fragment; `current` holds the word read so far. -/
def split (current : List Char) : List Char → Code
  | [] => wordIfAny current
  | c :: rest =>
    if isWordChar c then split (current ++ [c]) rest
    else if c == ' ' then wordIfAny current ++ split [] rest
    else wordIfAny current ++ .mark c :: split [] rest

def code (fragment : String) : Code := split [] fragment.toList

def parens (inner : Code) : Code := .mark '(' :: inner ++ [.mark ')']

def brackets (inner : Code) : Code := .mark '[' :: inner ++ [.mark ']']

def braces (inner : Code) : Code := .mark '\x7b' :: inner ++ [.mark '\x7d']

def joinWith (separator : Char) (parts : List Code) : Code := [Token.mark separator].intercalate parts

def number (n : Nat) : Code := [.word (Text.decimal n)]

def hexNumber (n : Nat) : Code := [.word (Text.hex n)]

def docComment (text : String) : Code := code "#" ++ brackets (code "doc =" ++ [.quoted text])

end PacketSpec.Codegen
