import Mathlib.Logic.Function.Iterate
import PacketSpec.Proofs.Builder.Origin
import PacketSpec.Proofs.Builder.Stopping

/-! Building a table always ends, and it reports recursion exactly where tables nest each other in a
circle. The tables in progress are distinct tables of the document, so no more levels of nesting are
entered than there are tables, whatever the rows say. -/
namespace PacketSpec

open Cell (TypeCell TypeKind Marker)

/-- Nothing reached from an accessible point lies on a cycle. -/
theorem not_transGen_of_acc {α : Type} {r : α → α → Prop} {a b : α}
    (acc : Acc (fun child parent => r parent child) a) (reached : Relation.ReflTransGen r a b) :
    ¬ Relation.TransGen r b b := by
  induction acc with
  | intro a _ ih =>
    intro cycle
    rcases reached.cases_head with rfl | ⟨next, step, rest⟩
    · obtain ⟨next, step, back⟩ := Relation.TransGen.head'_iff.mp cycle
      exact ih next step back cycle
    · exact ih next step rest cycle

namespace Builder

variable {document : Document} {window : Nat} {stack : List String}

theorem exists_row_of_refers {key other : String} (refers : document.Refers key other) :
    ∃ raw ∈ document.fieldRows key, Cell.readMarker raw.value = .ok (.struct other) := by
  have listed := (List.takeWhile_sublist _).subset refers
  obtain ⟨raw, member, read⟩ := List.mem_filterMap.mp listed
  exact ⟨raw, member, ok_of_toOption read⟩

/-- By induction on the structures before it: a structure nests only earlier ones. -/
theorem Traceable.acc {structs : List Struct} (traceable : Traceable document structs)
    {front back : List Struct} {s : Struct} (split : structs = front ++ s :: back) :
    Acc (fun child parent => document.Refers parent child) s.key := by
  induction before : front.length using Nat.strongRecOn generalizing front back s with
  | ind count ih =>
    constructor
    intro child refers
    obtain ⟨raw, member, read⟩ := exists_row_of_refers refers
    obtain ⟨index, row⟩ := List.mem_iff_getElem?.mp member
    obtain ⟨field, -, gives⟩ := (traceable front s back split).exists_field row
    obtain ⟨marked, -, -, -, -, nests⟩ := gives
    obtain ⟨t, earlier, rfl⟩ := nests child (Except.ok.inj (marked.symm.trans read))
    obtain ⟨first, rest, rfl⟩ := List.append_of_mem earlier
    rw [List.append_assoc, List.cons_append] at split
    apply ih first.length _ split rfl
    rw [← before, List.length_append, List.length_cons]
    omega

def nestedBy (inner : String → Option String → Role → Build Built) (key : String) :
    Build (Option String) := do
  match ← inner key (some key) .nested with
  | .struct id => return some id
  | .templated | .empty => return none

/-- One level of building: the table is read here, and `inner` builds the tables that it nests. -/
def buildLevel (document : Document) (window : Nat)
    (inner : String → Option String → Role → Build Built) (key : String) (name : Option String)
    (role : Role) : Build Built := do
  match (← get).built.lookup key with
  | some built => return built
  | none =>
    if (← get).inProgress.contains key then fail (.recursiveStruct key)
    let built ← whileInProgress key do
      match ← buildRows document (nestedBy inner) key name 0 (document.fieldRows key) {} with
      | .templated => return .templated
      | .fields draft => finishStruct window key name role draft
    modify fun context => { context with built := context.built ++ [(key, built)] }
    return built

theorem buildTable_succ (document : Document) (window depth : Nat) :
    buildTable document window (depth + 1) =
      buildLevel document window (buildTable document window depth) := rfl

variable {α β : Type}

def AgreeIn (stack : List String) (step other : Build α) : Prop :=
  ∀ ⦃context⦄, context.inProgress = stack → step.run context = other.run context

theorem AgreeIn.refl (step : Build α) : AgreeIn stack step step := fun _ _ => rfl

theorem AgreeIn.bind {step other : Build α} {next follow : α → Build β}
    (first : AgreeIn stack step other) (evolves : Evolves other)
    (second : ∀ ⦃before a middle⦄, Yields other before a middle →
      AgreeIn stack (next a) (follow a)) :
    AgreeIn stack (step >>= next) (other >>= follow) := by
  intro context busy
  rw [run_bind, run_bind, first busy]
  split
  · next a middle run => exact second run ((evolves.of_run run).inProgress.trans busy)
  · rfl

/-- Steps that differ only in what follows their common start. -/
theorem AgreeIn.after {step : Build α} {next follow : α → Build β} (still : Still step)
    (second : ∀ ⦃before a middle⦄, Yields step before a middle →
      AgreeIn stack (next a) (follow a)) :
    AgreeIn stack (step >>= next) (step >>= follow) :=
  (AgreeIn.refl step).bind still.evolves second

section Nested

variable {nested other : String → Build (Option String)}

theorem buildField_agrees (document : Document) {marker : Marker}
    (evolves : ∀ key, Evolves (other key))
    (agree : ∀ key, marker = .struct key → AgreeIn stack (nested key) (other key)) (row : RowRef)
    (siblings : List Field) (cell : TypeCell) (id : String) (bitsBefore : Nat) :
    AgreeIn stack (buildField document nested row siblings cell id marker bitsBefore)
      (buildField document other row siblings cell id marker bitsBefore) := by
  have shaped (o : Outline) :
      AgreeIn stack (shapeField document nested o cell.kind marker bitsBefore)
        (shapeField document other o cell.kind marker bitsBefore) := by
    cases marker with
    | struct key =>
      have typed : AgreeIn stack (nestedType nested o.row key) (nestedType other o.row key) :=
        (agree key rfl).bind (evolves key) fun _ _ _ _ => .refl _
      exact typed.bind (nestedType_evolves o.row key evolves) fun _ _ _ _ => .refl _
    | payload | ldpc | enum | string | fixed | none | template => exact .refl _
  simp only [buildField, failAt_bind]
  split
  · exact .refl _
  · apply AgreeIn.after (resolveRepetition_still _ _ _ _)
    intro _ repetition _ _
    exact (shaped _).bind (shapeField_evolves _ _ _ _ _ evolves) fun _ _ _ _ => .refl _

theorem buildRows_agrees (document : Document) (evolves : ∀ key, Evolves (other key))
    {rows : List FieldRow}
    (agree : ∀ key, (.struct key : Marker) ∈ fieldMarkers rows →
      AgreeIn stack (nested key) (other key))
    (key : String) (name : Option String) (index : Nat) (draft : Draft) :
    AgreeIn stack (buildRows document nested key name index rows draft)
      (buildRows document other key name index rows draft) := by
  induction rows generalizing index draft with
  | nil => exact .refl _
  | cons raw rest ih =>
    unfold buildRows
    apply AgreeIn.after (still_readableAt _ _ _)
    intro _ marker _ read
    have read := (yields_readableAt.mp read).1
    apply AgreeIn.after (still_readableAt _ _ _)
    intro _ label _ _
    split
    · exact .refl _
    · next notTemplate =>
      rw [fieldMarkers_cons read notTemplate] at agree
      apply AgreeIn.after (still_readableAt _ _ _)
      intro _ cell _ _
      apply AgreeIn.after (still_checked _)
      intro _ id _ _
      have nests (key : String) (same : marker = .struct key) :
          AgreeIn stack (nested key) (other key) := agree key (same ▸ .head _)
      apply (buildField_agrees document evolves nests _ _ _ _ _).bind
        (buildField_evolves _ _ _ _ _ _ _ evolves)
      intro _ field _ _
      apply AgreeIn.after (still_checked _)
      intro _ extended _ _
      exact ih (fun key member => agree key (.tail _ member)) (index + 1) _

end Nested

/-- A level depends on the one below only through the tables that its own table refers to. -/
theorem buildLevel_congr {inner other : String → Option String → Role → Build Built}
    (evolves : ∀ key, Evolves (nestedBy other key)) {key : String} {context : Context}
    (agree : key ∉ context.inProgress → ∀ nested, document.Refers key nested →
      AgreeIn (context.inProgress ++ [key]) (nestedBy inner nested) (nestedBy other nested))
    (name : Option String) (role : Role) :
    (buildLevel document window inner key name role).run context =
      (buildLevel document window other key name role).run context := by
  unfold buildLevel
  rw [run_get_bind, run_get_bind]
  split
  · rfl
  rw [run_get_bind, run_get_bind]
  simp only [fail_bind]
  split
  · rfl
  next idle =>
  have idle : key ∉ context.inProgress := by simpa using idle
  have rows := buildRows_agrees document evolves (agree idle) key name 0 {}
  have pushed : (context.push key).inProgress = context.inProgress ++ [key] := rfl
  rw [run_bind, run_bind, run_whileInProgress, run_whileInProgress, run_bind, run_bind, rows pushed]

/-- By induction on the depth: no level is entered below as many as there are tables beyond those
in progress. -/
theorem buildLevel_agrees (base : String → Option String → Role → Build Built) {depth more : Nat}
    {key : String} (name : Option String) (role : Role) (chain : document.Chain stack key)
    (room : document.structs.length < depth + stack.length)
    (roomToo : document.structs.length < more + stack.length) :
    AgreeIn stack ((buildLevel document window)^[depth] base key name role)
      (buildTable document window more key name role) := by
  have shorter := chain.length_le
  induction depth generalizing more key name role stack with
  | zero => omega
  | succ depth ih =>
    obtain ⟨more, rfl⟩ : ∃ fewer, more = fewer + 1 := ⟨more - 1, by omega⟩
    rintro context rfl
    rw [Function.iterate_succ_apply', buildTable_succ]
    apply buildLevel_congr (nestedStruct_evolves document window more)
    intro idle nested refers
    have chain := chain.push idle refers
    have longer : (context.inProgress ++ [key]).length = context.inProgress.length + 1 := by simp
    exact (ih (some nested) .nested chain (by omega) (by omega) chain.length_le).bind
      (TableEnd.evolves (buildTable_end document window more nested (some nested) .nested))
      fun _ _ _ _ => .refl _

/-- Whatever calls were made before, building a table ends: it takes at most one level more than
the document has tables, so it does not matter what would be done below them. If it reports that a
table is recursive, then that table refers to itself through others. If it gives a type name, then
no table that the built one refers to, directly or through others, refers to itself. -/
theorem recursion_detected (document : Document) (window : Nat) (source : String)
    (calls : List Call) (key : String) (name : Option String) (role : Role) :
    let context := afterCalls document window (Context.new source) calls
    (∀ base depth, document.structs.length < depth →
      ((buildLevel document window)^[depth] base key name role).run context =
        (build document window key name role).run context) ∧
    (∀ d k, ((buildStruct document window key name role).run context).1 = .error (.diagnostic d) →
      d.cause = .recursiveStruct k → Relation.TransGen document.Refers k k) ∧
    (∀ id, ((buildStruct document window key name role).run context).1 = .ok (some id) →
      ∀ reached, Relation.ReflTransGen document.Refers key reached →
        ¬ Relation.TransGen document.Refers reached reached) := by
  intro context
  have idle : context.inProgress = [] := Changes.inProgress (changes_afterCalls _ calls)
  refine ⟨?_, ?_, ?_⟩
  · intro base depth enough
    exact buildLevel_agrees base name role (document.chain_nil key)
      (by rw [List.length_nil]; omega) (by rw [List.length_nil]; omega) idle
  · intro d k failed reported
    cases buildStruct_stops document window key name role idle (Prod.ext failed rfl) with
    | recursive cycle =>
      cases reported
      exact cycle
    | ordinary ordinary =>
      cases ordinary with
      | diagnostic plain => exact absurd reported (plain k)
  · intro id named reached path
    obtain ⟨after, run⟩ : ∃ after,
        Yields (buildStruct document window key name role) context (some id) after :=
      ⟨_, Prod.ext named rfl⟩
    have traced : context.Traced document :=
      traced_afterCalls window (traced_new document source) calls
    have traced := (Call.traces window (.struct key name role)).of_run
      (Call.evolves (.struct key name role)) traced run
    rw [buildStruct_eq] at run
    obtain ⟨built, building, same⟩ := yields_map.mp run
    cases built with
    | struct other =>
      obtain ⟨s, member, rfl, -⟩ := (traced.consistent.built key other).mp (build_records building)
      obtain ⟨front, back, split⟩ := List.append_of_mem member
      exact not_transGen_of_acc (traced.structs.acc split) path
    | templated => cases same
    | empty => cases same

/-- Two tables that nest each other, a third one that nests the first, and a chain without a
circle. -/
def ringDocument : Document where
  structs := [
    ("Chain", [⟨"u(8)", "kind", ""⟩, ⟨"u(8)", "link", "struct\x7bLink\x7d"⟩]),
    ("Entry", [⟨"u(8)", "kind", ""⟩, ⟨"u(8)", "ring", "struct\x7bLeft\x7d"⟩]),
    ("Left", [⟨"u(8)", "link", "struct\x7bLink\x7d"⟩, ⟨"u(8)", "right", "struct\x7bRight\x7d"⟩]),
    ("Link", [⟨"u(8)", "value", ""⟩]),
    ("Right", [⟨"u(8)", "left", "struct\x7bLeft\x7d"⟩])]

/-- The ring is reported, the chain is not, also after the failed call. -/
theorem ring_detected :
    ((buildStruct ringDocument 32 "Entry" none .packet).run (Context.new "ring")).1 =
      .error (.diagnostic { cause := .recursiveStruct "Left" }) ∧
    Relation.TransGen ringDocument.Refers "Left" "Left" ∧
    ¬ Relation.TransGen ringDocument.Refers "Chain" "Chain" := by
  have failed : ((buildStruct ringDocument 32 "Entry" none .packet).run (Context.new "ring")).1 =
      .error (.diagnostic { cause := .recursiveStruct "Left" }) := by decide +kernel
  obtain ⟨-, reported, -⟩ := recursion_detected ringDocument 32 "ring" [] "Entry" none .packet
  obtain ⟨-, -, acyclic⟩ := recursion_detected ringDocument 32 "ring"
    [.struct "Entry" none .packet] "Chain" none .packet
  exact ⟨failed, reported _ _ failed rfl, acyclic "Kind" (by decide +kernel) "Chain" .refl⟩

end Builder

end PacketSpec
