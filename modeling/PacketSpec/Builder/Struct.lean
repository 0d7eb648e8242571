import PacketSpec.Builder.Field

/-!
A structure table becomes a structure. Tables are built once; a table that needs itself is
refused. The nesting of tables that differ is never deeper than their number, which bounds the
recursion.
-/
namespace PacketSpec.Builder

/-- The name of a descriptor row without its ending. -/
def descriptorKind? (label : String) : Option String :=
  (Text.dropEnding? label "_descriptor").filter (· != "")

/-- The names under which a label is tried, one after the other. -/
def candidates (siblings : List Field) (label : String) : List String :=
  label :: (List.range siblings.length).map fun k => s!"{label}_{Text.decimal (k + 2)}"

def isFree (siblings : List Field) (id : String) : Bool := !siblings.any (·.id == id)

/-- A label that no sibling has: the label itself, or the label with the first free number. -/
def freeId (siblings : List Field) (label : String) : String :=
  ((candidates siblings label).find? (isFree siblings)).getD label

/-- The free name of a label. Its number is counted from two on, by a counter that is one step ahead
of the number in use. -/
def freshId (siblings : List Field) (label : String) : Except Fault String := do
  Size.checkCounter ((candidates siblings label).findIdx (isFree siblings) + 2)
  return freeId siblings label

structure Draft where
  fields : List Field := []
  sizeBits : Nat := 0
  bitsSinceParity : Nat := 0
  descriptor : Option Nat := none
  kind : Option String := none

/-- The descriptor code that the first field of a structure fixes. -/
def Draft.registeredCode (draft : Draft) (field : Field) : Option Nat :=
  if draft.fields.isEmpty && field.shape == .descriptor then
    field.fixed.map fun value => if field.width == 8 then value ||| lsbFlag else value
  else draft.descriptor

def Draft.add (draft : Draft) (field : Field) : Except Fault Draft := do
  let count := match field.repetition with
    | .constant count => count
    | _ => 1
  let bitsSinceParity ←
    if field.shape.isParity then pure 0
    else Size.add draft.bitsSinceParity (← Size.mul field.width count)
  let sizeBits ←
    if field.shape == .payload || field.shape.isStruct then pure draft.sizeBits
    else Size.add draft.sizeBits ((← field.wireBits?).getD 0)
  return { draft with
    fields := draft.fields ++ [field], sizeBits, bitsSinceParity
    descriptor := draft.registeredCode field }

/-- The rows of a table make a structure, or one of them refers to a template. -/
inductive Rows where
  | fields (draft : Draft)
  | templated

def buildTemplated (row : RowRef) (anchor typeCell label : String) : Build Unit := do
  match (← get).templates.lookup anchor with
  | none => failAt row (.undeclaredAnchor anchor)
  | some templateId =>
    let code ← readableAt row .malformedCode (Cell.readCode typeCell)
    if 0xffff < code then failAt row (.codeTooLarge code)
    let kind := (descriptorKind? label).getD label
    registerDescriptor row.key kind code
    modifyModel fun model =>
      { model with templated := model.templated ++ [{ kind, descriptor := code, templateId }] }

def firstKind (name : Option String) (label : String) : String :=
  match descriptorKind? label, name with
  | some kind, _ => kind
  | none, some name => Text.snakeCase name
  | none, none => label

def buildRows (document : Document) (nested : String → Build (Option String)) (key : String)
    (name : Option String) : (index : Nat) → List FieldRow → Draft → Build Rows
  | _, [], draft => return .fields draft
  | index, raw :: rest, draft => do
    let row : RowRef := { key, index }
    let marker ← readableAt row .malformedMarker (Cell.readMarker raw.value)
    let label := Text.snakeCase (← readableAt row .malformedName (Cell.readName raw.name))
    match marker with
    | .template anchor =>
      buildTemplated row anchor raw.type label
      return .templated
    | _ =>
      let kind := if index == 0 then some (firstKind name label) else draft.kind
      let cell ← readableAt row .malformedType (Cell.readType raw.type)
      let id ← checked (freshId draft.fields label)
      let field ← buildField document nested row draft.fields cell id marker draft.bitsSinceParity
      let draft ← checked (draft.add field)
      buildRows document nested key name (index + 1) rest { draft with kind }

/-- Packs the narrow fields, which must close a chunk before every other field and at the end. -/
def checkWindow (key : String) : (index : Nat) → BitWindow Nat → List Field → Build Unit
  | _, window, [] =>
    match window.flush with
    | .ok () => return ()
    | .error e => fail (.misalignedEnd key e)
  | index, window, field :: rest => do
    let row : RowRef := { key, index }
    if field.isPacked then
      match ← checked (window.push index field.width) with
      | (.ok _, window) => checkWindow key (index + 1) window rest
      | (.error e, _) => failAt row (.windowOverflow field.id e)
    else
      match window.flush with
      | .ok () => checkWindow key (index + 1) window rest
      | .error e => failAt row (.misalignedField field.id e)

/-- The type name of a structure: its own name if that is an identifier, else its kind. -/
def typeName (name : Option String) (kind : String) : String :=
  Text.camelCase ((name.filter Text.isIdentifier).getD kind)

def finishStruct (window : Nat) (key : String) (name : Option String) (role : Role)
    (draft : Draft) : Build Built := do
  if draft.sizeBits == 0 then return .empty
  let kind := draft.kind.getD (Text.snakeCase key)
  let id := typeName name kind
  if !Text.isIdentifier id then fail (.invalidStructName key)
  checkWindow key 0 (BitWindow.empty window) draft.fields
  if let some code := draft.descriptor then registerDescriptor key kind code
  let { fields, sizeBits, descriptor, .. } := draft
  modifyModel fun model =>
    { model with structs := model.structs ++ [{ key, id, kind, role, fields, sizeBits, descriptor }] }
  return .struct id

def whileInProgress {α : Type} (key : String) (step : Build α) : Build α := fun context =>
  let (result, after) := step { context with inProgress := context.inProgress ++ [key] }
  (result, { after with inProgress := after.inProgress.dropLast })

/-- Builds a table in a context whose nesting has room for `depth` more tables. -/
def buildTable (document : Document) (window : Nat) :
    (depth : Nat) → (key : String) → (name : Option String) → Role → Build Built
  | 0, key, _, _ => fail (.recursiveStruct key)
  | depth + 1, key, name, role => do
    match (← get).built.lookup key with
    | some built => return built
    | none =>
      if (← get).inProgress.contains key then fail (.recursiveStruct key)
      let nested (key : String) : Build (Option String) := do
        match ← buildTable document window depth key (some key) .nested with
        | .struct id => return some id
        | .templated | .empty => return none
      let built ← whileInProgress key do
        match ← buildRows document nested key name 0 (document.fieldRows key) {} with
        | .templated => return .templated
        | .fields draft => finishStruct window key name role draft
      modify fun context => { context with built := context.built ++ [(key, built)] }
      return built

/-- Builds a table, or returns the outcome of its first building whatever name and role it had. -/
def build (document : Document) (window : Nat) (key : String) (name : Option String)
    (role : Role) : Build Built :=
  buildTable document window (document.structs.length + 2) key name role

def buildStruct (document : Document) (window : Nat) (key : String) (name : Option String)
    (role : Role) : Build (Option String) := do
  match ← build document window key name role with
  | .struct id => return some id
  | .templated | .empty => return none

end PacketSpec.Builder
