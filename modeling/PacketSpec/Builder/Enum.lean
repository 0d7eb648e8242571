import PacketSpec.Builder.Context
import PacketSpec.Cell.Read
import PacketSpec.Text.Case

/-! Enumerations are built when a field first refers to them. -/
namespace PacketSpec.Builder

def buildMember (key : String) (members : List EnumMember) (row : MemberRow) :
    Build (List EnumMember) := do
  let name ← readable (.malformedMember key) (Cell.readName row.name)
  let id := Text.camelCase name
  if !Text.isIdentifier id then fail (.invalidMember key row.name)
  let value ← readable (.malformedMember key) (Cell.readCode row.value)
  if id == "Unknown" || members.any (·.id == id) then fail (.duplicateMember id key)
  match members.find? (·.value == value) with
  | some other => fail (.duplicateValue key other.id id value)
  | none => return members ++ [⟨id, value⟩]

def resolveEnum (document : Document) (key : String) : Build String := do
  match (← get).model.enums.find? (·.key == key) with
  | some e => return e.id
  | none =>
    let id := Text.camelCase key
    if !Text.isIdentifier id then fail (.invalidEnumName key)
    match document.enumRows? key with
    | none => fail (.undeclaredEnum key)
    | some rows =>
      let members ← rows.foldlM (buildMember key) []
      modifyModel fun model => { model with enums := model.enums ++ [{ key, id, members }] }
      return id

end PacketSpec.Builder
