import PacketSpec.Analysis
import PacketSpec.Command.Files
import PacketSpec.Command.Plan
import PacketSpec.Document.Excerpt
import PacketSpec.Document.Read
import PacketSpec.Model.Json

/-! The command from its arguments to what it prints and writes. -/
namespace PacketSpec.Command

variable {m : Type → Type} [Monad m] [FileAccess m]

inductive Failure where
  | usage (error : UsageError)
  | unreadable (file : String) (error : FileError)
  | malformed (file text : String) (problem : Document.Problem)
  | rejected (diagnostics : List Diagnostic)
  | unwritable (file : String) (error : FileError)
  | fault (fault : Fault)

namespace Failure

def report : Failure → String
  | usage error => s!"error: {error.message}\nRun avtc --help for more information.\n"
  | unreadable file error => s!"error: failed to read input file '{file}': {error.message}\n"
  | malformed file text problem => problem.render file text
  | rejected diagnostics => String.join (diagnostics.map Diagnostic.render)
  | unwritable file error => s!"error: failed to write output file '{file}': {error.message}\n"
  | fault _ => "error: internal fault\n"

def exitCode : Failure → Nat
  | usage _ => 22
  | malformed .. | rejected _ => 65
  | unreadable .. | unwritable .. => 1
  | fault _ => 101

end Failure

def version : String := "0.1.0"

def banner (source : String) : String :=
  s!"// @generated by avtc {version} from {source}, do not edit.\n\n"

def outputText (model : Model) (window : Nat) : OutputKind → Except Fault String
  | .model => .ok (model.toJson.pretty ++ "\n")
  | .unit unit => do
    return banner model.source ++ (← Codegen.generate model unit window).text ++ "\n"

def readDocument (file : String) : ExceptT Failure m Document := do
  let text ← (readText file).adapt (Failure.unreadable file)
  match Document.ofJson text with
  | .ok document => return document
  | .error problem => throw (.malformed file text problem)

def analyzeDocument (document : Document) (window : Nat) (source : String) :
    Except Failure Model :=
  match analyze document window source with
  | .ok model => .ok model
  | .error (.diagnostics ds) => .error (.rejected ds)
  | .error (.fault f) => .error (.fault f)

def writeOutput (model : Model) (window : Nat) (kind : OutputKind) (file : String) :
    ExceptT Failure m Unit := do
  let text ← ExceptT.mk (pure ((outputText model window kind).mapError .fault))
  (writeText file text).adapt (Failure.unwritable file)

def Plan.run (plan : Plan) : ExceptT Failure m Unit := do
  let document ← readDocument plan.input
  let model ← ExceptT.mk (pure (analyzeDocument document plan.window plan.input))
  plan.outputs.forM fun (kind, file) => writeOutput model plan.window kind file

def Options.run (options : Options) : ExceptT Failure m Unit := do
  let plan ← ExceptT.mk (pure ((Plan.ofOptions options).mapError .usage))
  plan.run

def helpText : String :=
  "Usage: avtc [--version] [--bitfield-window <bitfield-window>] [--] [<args...>]\n\n" ++
  "AVTransport packet specification compiler. " ++
  "Example: avtc enums,data,encode,decode spec.json enums.rs data.rs encode.rs decode.rs\n\n" ++
  "Positional Arguments:\n" ++
  "  args              comma separated list of outputs (enums, data, encode,\n" ++
  "                    decode, ir), followed by the input specification document\n" ++
  "                    (JSON) and one output file per requested kind, in the same\n" ++
  "                    order.\n\n" ++
  "Options:\n" ++
  "  --version         print tool version and exit.\n" ++
  "  --bitfield-window width in bits of the window packing sub-byte fields (8, 16,\n" ++
  "                    32 or 64).\n" ++
  "  --help, help      display usage information\n"

structure Outcome where
  exitCode : Nat := 0
  stdout : String := ""
  stderr : String := ""
  deriving DecidableEq, Repr

def Outcome.ofFailure (failure : Failure) : Outcome :=
  { exitCode := failure.exitCode, stderr := failure.report }

def execute (arguments : List String) : m Outcome := do
  match Request.parse arguments with
  | .error e => return { exitCode := 22, stderr := e.message ++ "\n" }
  | .ok .help => return { stdout := helpText ++ "\n" }
  | .ok (.options options) =>
    if options.version then return { stdout := s!"avtc {version}\n" }
    match ← options.run.run with
    | .ok () => return {}
    | .error failure => return .ofFailure failure

end PacketSpec.Command
