import PacketSpec.BitWindow
import PacketSpec.Codegen.Unit
import PacketSpec.Command.Options
import PacketSpec.Text.Basic

/-! What a command line asks to be written: one file for every kind of output. -/
namespace PacketSpec.Command

inductive OutputKind where
  | unit (unit : Codegen.CodeUnit)
  /-- The model as JSON. -/
  | model
  deriving DecidableEq, Repr

namespace OutputKind

def ofLowerName? (name : String) : Option OutputKind :=
  if name == "ir" || name == "json" then some .model
  else (Codegen.CodeUnit.ofLowerName? name).map unit

def rank : OutputKind → Nat
  | .unit .enums => 0
  | .unit .data => 1
  | .unit .encoder => 2
  | .unit .decoder => 3
  | .model => 4

def display : OutputKind → String
  | .unit .enums => "Unit(Enums)"
  | .unit .data => "Unit(Data)"
  | .unit .encoder => "Unit(Encoder)"
  | .unit .decoder => "Unit(Decoder)"
  | .model => "Ir"

end OutputKind

inductive UsageError where
  | window (error : InvalidWindow)
  | noKinds
  | noInput
  | unknownKind (name : String)
  | fileCount (kinds files : Nat)
  | repeatedKind (kind : OutputKind)
  deriving DecidableEq, Repr

def UsageError.message : UsageError → String
  | .window error => error.message
  | .noKinds => "No output kinds are specified"
  | .noInput => "No input file is specified"
  | .unknownKind name => Codegen.CodeUnit.unknownName name
  | .fileCount kinds files =>
    s!"{Text.decimal kinds} output kinds are requested but {Text.decimal files} output files are given"
  | .repeatedKind kind => s!"output kind {kind.display} is requested twice"

structure Plan where
  window : Nat
  input : String
  /-- Kinds and files in the order of writing. -/
  outputs : List (OutputKind × String)
  deriving DecidableEq, Repr

/-- The kind of a name in any case, white space around it left out. -/
def readKind (name : String) : Except UsageError OutputKind :=
  let name := Text.lower (Text.trim name)
  match OutputKind.ofLowerName? name with
  | some kind => .ok kind
  | none => .error (.unknownKind name)

def readKinds (kinds : String) : Except UsageError (List OutputKind) :=
  ((Text.split ',' kinds.toList).map String.ofList).mapM readKind

def sortOutputs (outputs : List (OutputKind × String)) : List (OutputKind × String) :=
  outputs.mergeSort fun a b => a.1.rank ≤ b.1.rank

/-- The first kind that its successor repeats. -/
def repeatedKind? : List (OutputKind × String) → Option OutputKind
  | (kind, _) :: (next, file) :: rest =>
    if kind = next then some kind else repeatedKind? ((next, file) :: rest)
  | _ => none

def Plan.ofOptions (options : Options) : Except UsageError Plan := do
  let window ← (checkWindowWidth (options.window.getD defaultWindow)).mapError .window
  match options.arguments with
  | [] => throw .noKinds
  | [_] => throw .noInput
  | kinds :: input :: files =>
    let kinds ← readKinds kinds
    if kinds.length != files.length then throw (.fileCount kinds.length files.length)
    let outputs := sortOutputs (kinds.zip files)
    match repeatedKind? outputs with
    | some kind => throw (.repeatedKind kind)
    | none => return { window, input, outputs }

end PacketSpec.Command
