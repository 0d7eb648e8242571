import Mathlib.Logic.Relation
import PacketSpec.Proofs.Builder.Outcome
import PacketSpec.Proofs.Builder.Rows
import PacketSpec.Proofs.Text.Snake

/-! What building can do to a context, step by step and whether or not it ends well: an enumeration
or a nested type name is added, or a table that was not built gets its outcome together with all
that it contributes to the model. Every invariant of building follows from these changes alone. -/
namespace PacketSpec

def Struct.registration (s : Struct) : Option (String × Nat) :=
  s.descriptor.map fun code => (s.kind, code)

def TemplatedStruct.registration (t : TemplatedStruct) : String × Nat := (t.kind, t.descriptor)

def Repetition.constantCount : Repetition → Nat
  | .constant count => count
  | _ => 1

/-- The bits of all elements were counted without leaving the range of sizes. Those of a parity
are what the code adds to its message. -/
structure Field.Measured (field : Field) : Prop where
  bits : field.shape.isParity = false →
    field.width * field.repetition.constantCount < Size.bound
  parity : ∀ code, field.shape = .parity code → code.messageBits ≤ code.codeBits

/-- The bits that are declared for fields since the last parity among them: of a nested structure
the width of its row, of an array of unknown length one element. -/
def declaredSinceParity (fields : List Field) : Nat :=
  fields.foldl (fun bits field =>
    if field.shape.isParity then 0 else bits + field.width * field.repetition.constantCount) 0

def Field.Covers (field : Field) (bits : Nat) : Prop :=
  ∀ code, field.shape = .parity code → code.isByteAligned = true ∧ code.messageBits = bits

def ParitiesCover (fields : List Field) : Prop :=
  ∀ before field after, fields = before ++ field :: after →
    field.Covers (declaredSinceParity before)

theorem declaredSinceParity_concat (fields : List Field) (field : Field) :
    declaredSinceParity (fields ++ [field]) =
      if field.shape.isParity then 0
      else declaredSinceParity fields + field.width * field.repetition.constantCount := by
  simp [declaredSinceParity]

theorem ParitiesCover.concat {fields : List Field} {field : Field} (covered : ParitiesCover fields)
    (last : field.Covers (declaredSinceParity fields)) : ParitiesCover (fields ++ [field]) := by
  intro before other after split
  rcases List.eq_nil_or_concat after with rfl | ⟨between, final, rfl⟩
  · obtain ⟨rfl, same⟩ := List.append_inj' split rfl
    cases same
    exact last
  · rw [List.concat_eq_append, ← List.cons_append, ← List.append_assoc] at split
    exact covered before other between (List.append_inj' split rfl).1

/-- What a structure satisfies by the way it is made, beside its good form. -/
structure Struct.Made (s : Struct) : Prop where
  id : Text.isIdentifier s.id = true
  simpleId : Text.IsSimple s.id
  kind : Text.IsSnake s.kind
  sizeBits : s.sizeBits < Size.bound
  fields : ∀ field ∈ s.fields, field.Measured
  fieldIds : ∀ field ∈ s.fields, Text.IsSimple field.id
  parities : ParitiesCover s.fields

structure EnumMember.Made (member : EnumMember) : Prop where
  id : Text.isIdentifier member.id = true
  simpleId : Text.IsSimple member.id

structure Enum.Made (e : Enum) : Prop where
  id : Text.isIdentifier e.id = true
  members : ∀ member ∈ e.members, member.Made

structure TemplatedStruct.Made (t : TemplatedStruct) : Prop where
  kind : Text.IsSnake t.kind
  descriptor : t.descriptor ≤ 0xffff

namespace Builder

namespace Context

def addEnum (context : Context) (e : Enum) : Context :=
  { context with model := { context.model with enums := context.model.enums ++ [e] } }

def addSubstruct (context : Context) (typeId : String) : Context :=
  { context with model := { context.model with
      substructs := Model.insertName typeId context.model.substructs } }

def addStruct (context : Context) (s : Struct) : Context :=
  { context with model := { context.model with
      structs := context.model.structs ++ [s]
      descriptors := ⟨context.model.descriptors.entries ++ s.registration.toList⟩ } }

def addTemplated (context : Context) (t : TemplatedStruct) : Context :=
  { context with model := { context.model with
      templated := context.model.templated ++ [t]
      descriptors := ⟨context.model.descriptors.entries ++ [t.registration]⟩ } }

def addTemplate (context : Context) (anchor id : String) : Context :=
  { context with templates := (anchor, id) :: context.templates }

def record (context : Context) (key : String) (built : Built) : Context :=
  { context with built := context.built ++ [(key, built)] }

structure Awaits (context : Context) (key : String) : Prop where
  unbuilt : context.built.lookup key = none
  idle : key ∉ context.inProgress

def Lacks (context : Context) (entry : String × Nat) : Prop :=
  context.model.descriptors.get? entry.1 = none

end Context

/-- A single change of a context while tables are built. -/
inductive Change : Context → Context → Prop
  | enum {context : Context} {e : Enum} (fresh : ∀ other ∈ context.model.enums, other.key ≠ e.key)
      (made : e.Made) : Change context (context.addEnum e)
  | substruct {context : Context} (typeId : String) : Change context (context.addSubstruct typeId)
  | empty {context : Context} {key : String} (awaits : context.Awaits key) :
      Change context (context.record key .empty)
  | struct {context : Context} {s : Struct} (awaits : context.Awaits s.key)
      (lacks : ∀ entry ∈ s.registration, context.Lacks entry) (made : s.Made) :
      Change context ((context.addStruct s).record s.key (.struct s.id))
  | templated {context : Context} {key : String} {t : TemplatedStruct}
      (awaits : context.Awaits key) (lacks : context.Lacks t.registration)
      (template : ∃ anchor, (anchor, t.templateId) ∈ context.templates) (made : t.Made) :
      Change context ((context.addTemplated t).record key .templated)
  | template {context : Context} {key id : String} (anchor : String)
      (built : context.built.lookup key = some (.struct id)) :
      Change context (context.addTemplate anchor id)

abbrev Changes : Context → Context → Prop := Relation.ReflTransGen Change

theorem Change.inProgress {before after : Context} (change : Change before after) :
    after.inProgress = before.inProgress := by
  cases change <;> rfl

theorem Changes.inProgress {before after : Context} (changes : Changes before after) :
    after.inProgress = before.inProgress := by
  induction changes with
  | refl => rfl
  | tail _ change ih => exact change.inProgress.trans ih

theorem Context.Awaits.shrink {context : Context} {key : String} {stack : List String}
    (awaits : context.Awaits key) (fewer : stack ⊆ context.inProgress) :
    Awaits { context with inProgress := stack } key :=
  ⟨awaits.unbuilt, fun member => awaits.idle (fewer member)⟩

/-- A change is possible as well where fewer tables are being built. -/
theorem Change.shrink {before after : Context} {stack : List String}
    (change : Change before after) (fewer : stack ⊆ before.inProgress) :
    Change { before with inProgress := stack } { after with inProgress := stack } := by
  cases change with
  | enum fresh made => exact .enum fresh made
  | substruct typeId => exact .substruct typeId
  | empty awaits => exact .empty (awaits.shrink fewer)
  | struct awaits lacks made => exact .struct (awaits.shrink fewer) lacks made
  | templated awaits lacks template made =>
    exact .templated (awaits.shrink fewer) lacks template made
  | template anchor built => exact .template anchor built

theorem Changes.shrink {before after : Context} {stack : List String}
    (changes : Changes before after) (fewer : stack ⊆ before.inProgress) :
    Changes { before with inProgress := stack } { after with inProgress := stack } := by
  induction changes with
  | refl => exact .refl
  | tail changes change ih =>
    exact ih.tail (change.shrink ((Changes.inProgress changes).symm ▸ fewer))

theorem lookup_record (context : Context) (key other : String) (built : Built) :
    (context.record key built).built.lookup other =
      (context.built.lookup other).or (if other = key then some built else none) := by
  unfold Context.record
  rw [List.lookup_append, List.lookup_cons, List.lookup_nil]
  by_cases same : other = key
  · simp [same]
  · simp [same, beq_eq_false_iff_ne.mpr same]

/-- A table that is being built gets no outcome from the tables nested in it. -/
theorem Change.lookup_of_inProgress {before after : Context} {key : String}
    (change : Change before after) (busy : key ∈ before.inProgress) :
    after.built.lookup key = before.built.lookup key := by
  have unrecorded {other : String} (awaits : before.Awaits other) (context : Context)
      (same : context.built = before.built) (built : Built) :
      (context.record other built).built.lookup key = before.built.lookup key := by
    have different : key ≠ other := fun same => awaits.idle (same ▸ busy)
    rw [lookup_record, if_neg different, same, Option.or_none]
  cases change with
  | enum => rfl
  | substruct => rfl
  | empty awaits => exact unrecorded awaits _ rfl _
  | struct awaits => exact unrecorded awaits _ rfl _
  | templated awaits => exact unrecorded awaits _ rfl _
  | template => rfl

theorem Changes.lookup_of_inProgress {before after : Context} {key : String}
    (changes : Changes before after) (busy : key ∈ before.inProgress) :
    after.built.lookup key = before.built.lookup key := by
  induction changes with
  | refl => rfl
  | tail changes change ih =>
    exact (change.lookup_of_inProgress ((Changes.inProgress changes).symm ▸ busy)).trans ih

variable {α β : Type}

/-- Whatever its outcome, the step is a sequence of changes. -/
def Evolves (step : Build α) : Prop := ∀ before, Changes before (step.run before).2

theorem Still.evolves {step : Build α} (still : Still step) : Evolves step := by
  intro before
  rw [still.unchanged before]

theorem Evolves.of_run {step : Build α} (evolves : Evolves step) {before after : Context}
    {result : Except Stop α} (run : step.run before = (result, after)) : Changes before after := by
  have changes := evolves before
  rw [run] at changes
  exact changes

/-- What holds of a step that fails, and of what follows a step that succeeds, holds of both
together. -/
theorem outcome_bind {step : Build α} {next : α → Build β} {before : Context}
    {motive : Except Stop β × Context → Prop}
    (fails : ∀ stop after, step.run before = (.error stop, after) → motive (.error stop, after))
    (succeeds : ∀ a middle, Yields step before a middle → motive ((next a).run middle)) :
    motive ((step >>= next).run before) := by
  rw [run_bind]
  split
  · next a middle run => exact succeeds a middle run
  · next stop after run => exact fails stop after run

/-- The same for a step that leaves the context as it is. -/
theorem Still.outcome_bind {step : Build α} {next : α → Build β} {before : Context}
    {motive : Except Stop β × Context → Prop} (still : Still step)
    (fails : ∀ stop, motive (.error stop, before))
    (succeeds : ∀ a, Yields step before a before → motive ((next a).run before)) :
    motive ((step >>= next).run before) := by
  apply Builder.outcome_bind
  · intro stop after run
    obtain rfl := still.eq_of_run run
    exact fails stop
  · intro a middle run
    obtain rfl := still.eq_of_run run
    exact succeeds a run

theorem Evolves.bind {step : Build α} {next : α → Build β} (first : Evolves step)
    (second : ∀ a, Evolves (next a)) : Evolves (step >>= next) := by
  intro before
  apply outcome_bind (motive := fun outcome => Changes before outcome.2)
  · intro stop after run
    exact first.of_run run
  · intro a middle run
    exact (first.of_run run).trans (second a middle)

@[simp] theorem evolves_ite {p : Prop} [Decidable p] {first second : Build α} :
    Evolves (if p then first else second) ↔ (p → Evolves first) ∧ (¬ p → Evolves second) := by
  by_cases h : p <;> simp [h]

end Builder

end PacketSpec
