import PacketSpec.Command.Run
import PacketSpec.Proofs.Codegen.Units
import PacketSpec.Proofs.Command.Disk
import PacketSpec.Proofs.OutputPlan

/-! What the command writes. All that a command line or a document can be refused for is found before
the first output, but for names that are no identifiers: the generators meet them one by one, when
the outputs before have been written. -/
namespace PacketSpec.Command

def Disk.run (disk : Disk) (arguments : List String) : Outcome × Disk :=
  (execute arguments : StateM Disk Outcome).run disk

def Plan.AskedBy (plan : Plan) (arguments : List String) : Prop :=
  ∃ options, Request.parse arguments = .ok (.options options) ∧ options.version = false ∧
    Plan.ofOptions options = .ok plan

def Disk.HoldsText (disk : Disk) (file text : String) : Prop :=
  ∃ bytes, disk.read file = .ok bytes ∧ Wire.Utf8.toString? bytes = some text

/-- The input of the plan is a document that passes all checks, and this is its model. -/
def Plan.Yields (plan : Plan) (disk : Disk) (model : Model) : Prop :=
  ∃ document, (∃ text, disk.HoldsText plan.input text ∧ Document.ofJson text = .ok document) ∧
    analyze document plan.window plan.input = .ok model

def Makes (model : Model) (window : Nat) (outputs : List (OutputKind × String))
    (texts : List (String × String)) : Prop :=
  List.Forall₂ (fun output written =>
    written.1 = output.2 ∧ outputText model window output.1 = .ok written.2) outputs texts

/-- How the writing of outputs ends: with all of them, or at one that has no text or no place. -/
inductive Writes (model : Model) (window : Nat) (outputs : List (OutputKind × String))
    (disk : Disk) : Except Failure Unit → Disk → Prop
  | all {texts : List (String × String)} {after : Disk} (made : Makes model window outputs texts)
      (wrote : disk.Wrote texts after) : Writes model window outputs disk (.ok ()) after
  | fault {earlier later : List (OutputKind × String)} {kind : OutputKind} {file : String}
      {texts : List (String × String)} {fault : Fault} {after : Disk}
      (split : outputs = earlier ++ (kind, file) :: later)
      (made : Makes model window earlier texts) (wrote : disk.Wrote texts after)
      (failed : outputText model window kind = .error fault) :
      Writes model window outputs disk (.error (.fault fault)) after
  | refused {earlier later : List (OutputKind × String)} {kind : OutputKind} {file text : String}
      {texts : List (String × String)} {error : FileError} {after : Disk}
      (split : outputs = earlier ++ (kind, file) :: later)
      (made : Makes model window earlier texts) (wrote : disk.Wrote texts after)
      (own : outputText model window kind = .ok text)
      (refused : after.write file (Wire.Utf8.ofString text) = .error error) :
      Writes model window outputs disk (.error (.unwritable file error)) after

variable {disk middle after : Disk} {model : Model} {window : Nat} {plan : Plan}

section Actions

variable {ε α β : Type} {action : ExceptT ε (StateM Disk) α}

end Actions

/-- The outputs before have been written when one fails. -/
theorem Writes.cons {kind : OutputKind} {file text : String} {ended : Except Failure Unit}
    {rest : List (OutputKind × String)} (own : outputText model window kind = .ok text)
    (first : disk.write file (Wire.Utf8.ofString text) = .ok middle)
    (writes : Writes model window rest middle ended after) :
    Writes model window ((kind, file) :: rest) disk ended after := by
  cases writes with
  | all made wrote => exact .all (.cons ⟨rfl, own⟩ made) (.cons first wrote)
  | fault split made wrote failed =>
    exact .fault (congrArg ((kind, file) :: ·) split) (.cons ⟨rfl, own⟩ made)
      (.cons first wrote) failed
  | refused split made wrote text refused =>
    exact .refused (congrArg ((kind, file) :: ·) split) (.cons ⟨rfl, own⟩ made)
      (.cons first wrote) text refused

theorem Writes.append {outputs : List (OutputKind × String)} {failure : Failure}
    (writes : Writes model window outputs disk (.error failure) after)
    (more : List (OutputKind × String)) :
    Writes model window (outputs ++ more) disk (.error failure) after := by
  cases writes with
  | fault split made wrote failed =>
    exact .fault (by rw [split, List.append_assoc, List.cons_append]) made wrote failed
  | refused split made wrote text refused =>
    exact .refused (by rw [split, List.append_assoc, List.cons_append]) made wrote text refused

theorem Plan.AskedBy.inOrder {arguments : List String} (asked : plan.AskedBy arguments) :
    InOrder plan.outputs := by
  obtain ⟨options, -, -, planned⟩ := asked
  obtain ⟨-, text, kinds, files, -, -, -, single, -, sorted⟩ := ofOptions_eq_ok.mp planned
  rw [sorted]
  exact (repeatedKind?_eq_none (sortOutputs_pairwise _)).mp single

theorem Plan.AskedBy.narrow {arguments : List String} (asked : plan.AskedBy arguments) :
    plan.window ≤ 64 := by
  obtain ⟨options, -, -, planned⟩ := asked
  obtain ⟨width, text, kinds, files, -, -, -, -, same, -⟩ := ofOptions_eq_ok.mp planned
  rw [← same] at width
  simp only [List.mem_cons, List.not_mem_nil, or_false] at width
  omega

end PacketSpec.Command
