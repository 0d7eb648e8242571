import PacketSpec.Builder.Struct

/-!
A document as a whole becomes a model: its templates are built first, then every descriptor range
is walked up to its first missing table, and last the names and codes are compared.
-/
namespace PacketSpec

open Builder

def buildTemplate (document : Document) (window : Nat) (template : TemplateRow) : Build Unit := do
  let anchor ← readable (.malformedAnchor template.id) (Cell.readAnchor template.anchor)
  match ← buildStruct document window template.id none .template with
  | none => fail (.emptyTemplate template.id)
  | some id =>
    modify fun context => { context with templates := (anchor, id) :: context.templates }

/-- Builds the packets of `count` codes from `code` on, up to the first one without fields. -/
def buildCodes (document : Document) (window : Nat) : (count code : Nat) → Build Unit
  | 0, _ => return ()
  | count + 1, code => do
    match ← build document window (Text.codeKey code) none .packet with
    | .empty => return ()
    | _ => buildCodes document window count (code + 1)

def buildRange (document : Document) (window : Nat) (range : RangeRow) : Build Unit := do
  let (first, last) ← readable (.malformedRange range.codes) (Cell.readCodeRange range.codes)
  if last < first || 0xffff < last then fail (.invalidRange range.codes first last)
  buildCodes document window (last - first + 1) first

def buildAll (document : Document) (window : Nat) : Build Unit := do
  document.templates.forM (buildTemplate document window)
  document.ranges.forM (buildRange document window)

/-- Goes through named things and reports each one that has a key of an earlier one, together
with the latest earlier one. -/
def findRepeats {κ : Type} [BEq κ] (report : (key : κ) → (earlier later : String) → Cause) :
    (seen : List (κ × String)) → List (κ × String) → List Diagnostic
  | _, [] => []
  | seen, (key, name) :: rest =>
    ((seen.lookup key).map fun earlier => { cause := report key earlier name }).toList ++
      findRepeats report ((key, name) :: seen) rest

def repeatedCodes (model : Model) : List Diagnostic :=
  findRepeats (fun code other kind => .duplicateCode other kind code) []
    (model.descriptors.entries.map fun (kind, code) => (clearFlag code, kind))

/-- The type names that the generated code has for its own use. -/
def reservedTypes : List (String × String) :=
  [("PktDescriptor", "generated descriptor type"), ("PacketData", "generated packet union")]

def repeatedTypes (model : Model) : List Diagnostic :=
  findRepeats (fun id other key => .duplicateType id key other) reservedTypes
    (model.enums.map (fun e => (e.id, e.key)) ++ model.structs.map fun s => (s.id, s.key))

inductive AnalysisError where
  | diagnostics (ds : List Diagnostic)
  | fault (f : Fault)
  deriving DecidableEq, Repr

/-- The model of a document whose narrow fields are packed in a window of the given width. -/
def analyze (document : Document) (window : Nat) (source : String) : Except AnalysisError Model :=
  match (buildAll document window).run (Context.new source) with
  | (.error (.diagnostic d), _) => .error (.diagnostics [d])
  | (.error (.fault f), _) => .error (.fault f)
  | (.ok (), { model, .. }) =>
    match repeatedCodes model ++ repeatedTypes model with
    | [] => .ok model
    | ds => .error (.diagnostics ds)

end PacketSpec
