import PacketSpec.Document.Basic
import PacketSpec.Document.Reading

/-!
Reading a document from JSON text. Rows ignore keys that they do not know, the document itself
refuses them, and any of these may also be written as a list of its fields in order.
-/
namespace PacketSpec.Document

open Reading

def once {α : Type} (name : String) (given : Option α) (value : Read α) : Read (Option α) := do
  if given.isSome then failInside (.duplicateField name)
  colon
  return some (← value)

def ignored : Read Unit := do colon; skipValue

def required {α : Type} (name : String) (given : Option α) : Read α :=
  match given with
  | some a => pure a
  | none => failInside (.missingField name)

def entriesFrom {σ : Type} (entry : String → σ → Read σ) (start : σ) : Read σ := do
  entries entry ((← get).rest.length + 1) true start

def nextField? {α : Type} (index : Nat) (value : Read α) : Read (Option α) := do
  if ← moreElements (index == 0) then return some (← value) else return none

def nextField {α : Type} (index : Nat) (expected : String) (value : Read α) : Read α := do
  match ← nextField? index value with
  | some a => return a
  | none => failInside (.invalidLength index expected)

def pairRow {ρ : Type} (kind first second : String) (make : String → String → ρ) : Read ρ :=
  let elements := s!"struct {kind} with 2 elements"
  let entry (key : String) (found : Option String × Option String) :
      Read (Option String × Option String) := do
    if key == first then return (← once key found.1 string, found.2)
    else if key == second then return (found.1, ← once key found.2 string)
    else ignored; return found
  record s!"struct {kind}"
    (do
      let found ← entriesFrom entry (none, none)
      let a ← required first found.1
      let b ← required second found.2
      return make a b)
    (do
      let a ← nextField 0 elements string
      let b ← nextField 1 elements string
      return make a b)

def rangeRow : Read RangeRow := pairRow "RangeRow" "codes" "anchor" RangeRow.mk

def templateRow : Read TemplateRow := pairRow "TemplateRef" "id" "anchor" TemplateRow.mk

def memberRow : Read MemberRow := pairRow "RawEnumMember" "name" "value" MemberRow.mk

structure PartialRow where
  type : Option String := none
  name : Option String := none
  value : Option String := none

def fieldRow : Read FieldRow :=
  let elements := "struct RawRow with 3 elements"
  let entry (key : String) (row : PartialRow) : Read PartialRow := do
    if key == "type" then return { row with type := ← once key row.type string }
    else if key == "name" then return { row with name := ← once key row.name string }
    else if key == "value" then return { row with value := ← once key row.value string }
    else ignored; return row
  record "struct RawRow"
    (do
      let row ← entriesFrom entry {}
      let type ← required "type" row.type
      let name ← required "name" row.name
      return { type, name, value := row.value.getD "" })
    (do
      let type ← nextField 0 elements string
      let name ← nextField 1 elements string
      let value ← nextField? 2 string
      return { type, name, value := value.getD "" })

structure PartialDocument where
  ranges : Option (List RangeRow) := none
  templates : Option (List TemplateRow) := none
  structs : Option (Tables FieldRow) := none
  enums : Option (Tables MemberRow) := none

def PartialDocument.complete (found : PartialDocument) : Document where
  ranges := found.ranges.getD []
  templates := found.templates.getD []
  structs := found.structs.getD []
  enums := found.enums.getD []

def tables {ρ : Type} (row : Read ρ) : Read (Tables ρ) := Tables.ofList <$> map (list row)

def keys : List String := ["descriptors", "templates", "structs", "enums"]

def value : Read Document :=
  let entry (key : String) (found : PartialDocument) : Read PartialDocument := do
    if key == "descriptors" then
      return { found with ranges := ← once key found.ranges (list rangeRow) }
    else if key == "templates" then
      return { found with templates := ← once key found.templates (list templateRow) }
    else if key == "structs" then
      return { found with structs := ← once key found.structs (tables fieldRow) }
    else if key == "enums" then
      return { found with enums := ← once key found.enums (tables memberRow) }
    else failInside (.unknownField key keys)
  record "struct JsonDocument"
    (do return (← entriesFrom entry {}).complete)
    (do
      let ranges ← nextField? 0 (list rangeRow)
      let templates ← nextField? 1 (list templateRow)
      let structs ← nextField? 2 (tables fieldRow)
      let enums ← nextField? 3 (tables memberRow)
      return ({ ranges, templates, structs, enums } : PartialDocument).complete)

def ofJson (text : String) : Except Problem Document := whole value text

end PacketSpec.Document
