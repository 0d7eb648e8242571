import PacketSpec.BitWindow
import PacketSpec.Cell.Basic
import PacketSpec.Text.Basic
import PacketSpec.Wire.Ldpc

/-! What is wrong with a specification. Every cause has a code and a message. -/
namespace PacketSpec

inductive Cause where
  | malformedType (error : Cell.Error)
  | malformedName (error : Cell.Error)
  | malformedMarker (error : Cell.Error)
  | malformedRange (codes : String) (error : Cell.Error)
  | invalidRange (codes : String) (first last : Nat)
  | malformedAnchor (template : String) (error : Cell.Error)
  | malformedMember (enum : String) (error : Cell.Error)
  | invalidMember (enum name : String)
  | zeroWidth (field : String)
  | invalidWidth (field : String) (width : Nat)
  | invalidEnumWidth (field : String) (width : Nat)
  | unalignedString (field : String)
  | wideStringElement (field : String)
  | zeroElements (field : String)
  | notRepeatable (field : String)
  | notFixable (field : String)
  | fixedOutOfRange (value : Nat) (field : String) (width : Nat)
  | undeclaredStruct (key : String)
  | emptyTemplate (id : String)
  | undeclaredEnum (key : String)
  | undeclaredAnchor (anchor : String)
  | undeclaredCount (name : String)
  | invalidCount (name : String)
  | recursiveStruct (key : String)
  | uncoveredMessage (code : LdpcCode) (bits : Nat)
  | invalidParityWidth (field : String) (bits : Nat)
  | invalidLdpcCode (code : LdpcCode)
  | secondPayload (field : String)
  | nestedPayload (typeId : String)
  | windowOverflow (field : String) (error : WindowError)
  | misalignedField (field : String) (error : WindowError)
  | misalignedEnd (key : String) (error : WindowError)
  | malformedCode (error : Cell.Error)
  | codeTooLarge (code : Nat)
  | duplicateCode (other kind : String) (code : Nat)
  | duplicateKind (kind key : String) (code : Nat)
  | duplicateValue (enum other member : String) (value : Nat)
  | duplicateMember (member enum : String)
  | invalidEnumName (key : String)
  | invalidStructName (key : String)
  | duplicateType (id key other : String)
  deriving DecidableEq, Repr

namespace Cause

/-- Related causes share a code. -/
def code : Cause → Nat
  | malformedType _ => 1
  | malformedName _ => 2
  | malformedMarker _ => 3
  | malformedRange .. | invalidRange .. => 4
  | malformedAnchor .. => 5
  | malformedMember .. | invalidMember .. => 6
  | zeroWidth _ | invalidWidth .. | invalidEnumWidth .. | unalignedString _
  | wideStringElement _ => 7
  | zeroElements _ | notRepeatable _ => 8
  | notFixable _ => 9
  | fixedOutOfRange .. => 10
  | undeclaredStruct _ | emptyTemplate _ => 11
  | undeclaredEnum _ => 12
  | undeclaredAnchor _ => 13
  | undeclaredCount _ => 14
  | invalidCount _ => 15
  | recursiveStruct _ => 16
  | uncoveredMessage .. | invalidParityWidth .. => 17
  | invalidLdpcCode _ => 18
  | secondPayload _ => 19
  | nestedPayload _ => 20
  | windowOverflow .. => 21
  | misalignedField .. | misalignedEnd .. => 22
  | malformedCode _ | codeTooLarge _ => 23
  | duplicateCode .. => 24
  | duplicateKind .. => 25
  | duplicateValue .. => 26
  | duplicateMember .. => 27
  | invalidEnumName _ | invalidStructName _ => 28
  | duplicateType .. => 29

open Text (decimal hex hexCode)

def message : Cause → String
  | malformedType error => error.message
  | malformedName error => error.message
  | malformedMarker error => error.message
  | malformedRange codes error => s!"descriptor range `{codes}`: {error.message}"
  | invalidRange codes first last =>
    s!"descriptor range `{codes}`: invalid bounds {hexCode first}..={hexCode last}"
  | malformedAnchor template error => s!"template `{template}`: {error.message}"
  | malformedMember enum error => s!"in enum `{enum}`: {error.message}"
  | invalidMember enum name => s!"in enum `{enum}`: `{name}` does not name a valid member"
  | zeroWidth field => s!"field `{field}` has zero width"
  | invalidWidth field width => s!"field `{field}` has invalid width {decimal width}"
  | invalidEnumWidth field width => s!"enum field `{field}` has invalid width {decimal width}"
  | unalignedString field => s!"string field `{field}` is not byte aligned"
  | wideStringElement field => s!"variable length string `{field}` must have 8-bit elements"
  | zeroElements field => s!"field `{field}` has zero elements"
  | notRepeatable field => s!"field `{field}` cannot be repeated"
  | notFixable field => s!"field `{field}` cannot hold a fixed value"
  | fixedOutOfRange value field width =>
    s!"fixed value {hex value} of field `{field}` exceeds {decimal width} bits"
  | undeclaredStruct key => s!"undeclared structure identifier `{key}`"
  | emptyTemplate id => s!"template `{id}` has no fields"
  | undeclaredEnum key => s!"undeclared enum identifier `{key}`"
  | undeclaredAnchor anchor => s!"undeclared template anchor `{anchor}`"
  | undeclaredCount name => s!"undeclared count field `{name}`"
  | invalidCount name => s!"count field `{name}` is not an unsigned scalar"
  | recursiveStruct key => s!"recursive declaration of structure `{key}`"
  | uncoveredMessage code bits =>
    let (n, k) := (decimal code.codeBits, decimal code.messageBits)
    s!"LDPC({n}, {k}) covers {k} bits, but {decimal bits} bits precede the marker"
  | invalidParityWidth field bits => s!"parity field `{field}` must hold {decimal bits} bits"
  | invalidLdpcCode code =>
    s!"invalid LDPC code ({decimal code.codeBits}, {decimal code.messageBits})"
  | secondPayload field => s!"second payload field `{field}`"
  | nestedPayload typeId => s!"structure `{typeId}` has a payload and cannot be nested"
  | windowOverflow field error => s!"field `{field}`: {error.message}"
  | misalignedField field error => s!"field `{field}`: {error.message}"
  | misalignedEnd key error => s!"at the end of structure `{key}`: {error.message}"
  | malformedCode error => error.message
  | codeTooLarge code => s!"descriptor code {hex code} is too large"
  | duplicateCode other kind code =>
    s!"descriptor kinds `{other}` and `{kind}` share the code {hexCode code}"
  | duplicateKind kind key code =>
    s!"descriptor kind `{kind}` of structure `{key}` is already registered with code {hexCode code}"
  | duplicateValue enum other member value =>
    s!"enum `{enum}` members `{other}` and `{member}` share the value {hex value}"
  | duplicateMember member enum => s!"duplicate member `{member}` in enum `{enum}`"
  | invalidEnumName key => s!"enum `{key}` does not name a valid type"
  | invalidStructName key => s!"structure `{key}` does not name a valid type"
  | duplicateType id key other => s!"type name `{id}` of `{key}` is already used by `{other}`"

end Cause

structure RowRef where
  key : String
  index : Nat
  deriving DecidableEq, Repr

structure Diagnostic where
  cause : Cause
  row : Option RowRef := none
  deriving DecidableEq, Repr

namespace Diagnostic

def code (d : Diagnostic) : String := s!"E{Text.decimal d.cause.code}"

def message (d : Diagnostic) : String := d.cause.message

def notes (d : Diagnostic) : List String :=
  d.row.toList.map fun row => s!"in structure `{row.key}`, row {Text.decimal row.index}"

/-- A note as it is shown; the lines after its first one are indented. -/
def renderNote (note : String) : String :=
  match Text.lines note with
  | [] => ""
  | line :: rest => s!" = {line}\n" ++ String.join (rest.map fun line => s!"   {line}\n")

/-- The diagnostic as it is shown, its notes below it and an empty line after it. -/
def render (d : Diagnostic) : String :=
  s!"error[{d.code}]: {d.message}\n" ++ String.join (d.notes.map renderNote) ++ "\n"

end Diagnostic

end PacketSpec
