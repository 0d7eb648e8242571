import PacketSpec.Diagnostic
import PacketSpec.Document.Basic
import PacketSpec.Model.Basic

/-!
The state in which a model is built, and steps that read and change it. A step that fails keeps
what was built before it.
-/
namespace PacketSpec.Builder

inductive Built where
  | struct (id : String)
  /-- A descriptor that has the layout of a template. -/
  | templated
  /-- The table is missing or without a field of known size. -/
  | empty
  deriving DecidableEq, Repr

structure Context where
  model : Model
  /-- The outcomes of the tables built so far, by key. -/
  built : List (String × Built) := []
  /-- The keys of the tables being built, the innermost last. -/
  inProgress : List String := []
  /-- The type names of templates by anchor, the latest first. -/
  templates : List (String × String) := []
  deriving DecidableEq, Repr

inductive Stop where
  | diagnostic (d : Diagnostic)
  | fault (f : Fault)
  deriving DecidableEq, Repr

abbrev Build := ExceptT Stop (StateM Context)

def Context.new (source : String) : Context := { model := { source } }

def fail {α : Type} (cause : Cause) : Build α := throw (.diagnostic { cause })

def failAt {α : Type} (row : RowRef) (cause : Cause) : Build α :=
  throw (.diagnostic { cause, row := some row })

def checked {α : Type} : Except Fault α → Build α
  | .ok a => pure a
  | .error f => throw (.fault f)

/-- Turns a cell that cannot be read into a diagnostic. -/
def readable {α : Type} (cause : Cell.Error → Cause) : Except Cell.Error α → Build α
  | .ok a => pure a
  | .error e => fail (cause e)

def readableAt {α : Type} (row : RowRef) (cause : Cell.Error → Cause) :
    Except Cell.Error α → Build α
  | .ok a => pure a
  | .error e => failAt row (cause e)

def modifyModel (change : Model → Model) : Build Unit :=
  modify fun context => { context with model := change context.model }

def registerDescriptor (key kind : String) (code : Nat) : Build Unit := do
  match (← get).model.descriptors.get? kind with
  | some other => fail (.duplicateKind kind key other)
  | none =>
    modifyModel fun model => { model with descriptors := model.descriptors.insert kind code }

end PacketSpec.Builder
