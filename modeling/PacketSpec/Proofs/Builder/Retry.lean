import PacketSpec.Proofs.Builder.Consistency

/-! A table that could not be built cannot be built right after that either: what the failed attempt
leaves behind is found again by the next one and changes neither its way nor its end. -/
namespace PacketSpec

theorem Model.ascending_insertName {name : String} {names : List String}
    (ascending : names.Pairwise (· < ·)) : (Model.insertName name names).Pairwise (· < ·) := by
  fun_induction Model.insertName name names with
  | case1 => simp
  | case2 other rest less =>
    have above := (List.pairwise_cons.mp ascending).1
    apply List.pairwise_cons.mpr
    constructor
    · intro third member
      rcases List.mem_cons.mp member with rfl | later
      · exact less
      · exact String.lt_trans less (above third later)
    · exact ascending
  | case3 => exact ascending
  | case4 other rest notLess different ih =>
    obtain ⟨above, ordered⟩ := List.pairwise_cons.mp ascending
    apply List.pairwise_cons.mpr
    constructor
    · intro third member
      rcases Model.mem_insertName.mp member with rfl | later
      · have atLeast : other ≤ third := String.not_lt.mp notLess
        exact Std.lt_of_le_of_ne atLeast (Ne.symm different)
      · exact above third later
    · exact ih ordered

theorem Model.insertName_of_mem {name : String} {names : List String}
    (ascending : names.Pairwise (· < ·)) (member : name ∈ names) :
    Model.insertName name names = names := by
  fun_induction Model.insertName name names with
  | case1 => cases member
  | case2 other rest less =>
    have above := (List.pairwise_cons.mp ascending).1
    rcases List.mem_cons.mp member with rfl | later
    · exact absurd less (String.lt_irrefl _)
    · exact absurd (String.lt_trans less (above name later)) (String.lt_irrefl _)
  | case3 => rfl
  | case4 other rest _ different ih =>
    have later := (List.mem_cons.mp member).resolve_left different
    rw [ih (List.pairwise_cons.mp ascending).2 later]

namespace Builder

open Cell (TypeCell TypeKind Marker)

structure Context.Settled (context : Context) : Prop where
  consistent : context.Consistent
  ascending : context.model.substructs.Pairwise (· < ·)

theorem settled_new (source : String) : (Context.new source).Settled :=
  ⟨consistent_new source, List.Pairwise.nil⟩

theorem Change.ascending {before after : Context} (change : Change before after)
    (ascending : before.model.substructs.Pairwise (· < ·)) :
    after.model.substructs.Pairwise (· < ·) := by
  cases change with
  | substruct typeId => exact Model.ascending_insertName ascending
  | enum | empty | struct | templated | template => exact ascending

theorem Changes.settled {before after : Context} (changes : Changes before after)
    (settled : before.Settled) : after.Settled := by
  constructor
  · exact changes.consistent settled.consistent
  · induction changes with
    | refl => exact settled.ascending
    | tail _ change ih => exact change.ascending ih

theorem Changes.substructs {before after : Context} (changes : Changes before after) :
    before.model.substructs ⊆ after.model.substructs := by
  induction changes with
  | refl => exact List.Subset.refl _
  | tail _ change ih =>
    intro name member
    cases change with
    | substruct typeId => exact Model.mem_insertName.mpr (.inr (ih member))
    | enum | empty | struct | templated | template => exact ih member

/-- The structure of a type name stays the same one. -/
theorem Context.Continues.struct? {context later : Context} (continues : context.Continues later)
    {typeId : String} (known : ∃ s ∈ context.model.structs, s.id = typeId) :
    later.model.struct? typeId = context.model.struct? typeId := by
  obtain ⟨more, same⟩ := continues.structs
  obtain ⟨s, member, named⟩ := known
  have found : (context.model.structs.find? (·.id == typeId)).isSome = true :=
    List.find?_isSome.mpr ⟨s, member, by simp [named]⟩
  rw [Model.struct?, Model.struct?, ← same, List.find?_append, Option.or_of_isSome found]

variable {α β : Type}

/-- What another run of the step does. After a success whose result is worth keeping it gives that
result in every later context, and right after a failure it fails likewise; neither changes the
context. -/
structure Repeats (kept : α → Prop) (step : Build α) : Prop where
  succeeded : ∀ ⦃before a after⦄, before.Settled → Yields step before a after → kept a →
    Changes before after ∧ ∀ later, Changes after later → step.run later = (.ok a, later)
  failed : ∀ ⦃before stop after⦄, before.Settled → step.run before = (.error stop, after) →
    Changes before after ∧ step.run after = (.error stop, after)

abbrev Always (step : Build α) : Prop := Repeats (fun _ => True) step

theorem Still.repeats {step : Build α} {kept : α → Prop} (still : Still step) :
    Repeats kept step := by
  obtain ⟨result, same⟩ := still
  constructor
  · intro before a after _ run _
    obtain ⟨rfl, rfl⟩ := Prod.mk.inj ((same before).symm.trans run)
    exact ⟨.refl, fun later _ => same later⟩
  · intro before stop after _ run
    obtain ⟨rfl, rfl⟩ := Prod.mk.inj ((same before).symm.trans run)
    exact ⟨.refl, same before⟩

theorem Repeats.bind {step : Build α} {next : α → Build β} {kept : β → Prop}
    (first : Always step) (second : ∀ a, Repeats kept (next a)) : Repeats kept (step >>= next) := by
  constructor
  · intro before b after settled run keep
    obtain ⟨a, middle, run, rest⟩ := yields_bind.mp run
    obtain ⟨changes, again⟩ := first.succeeded settled run trivial
    obtain ⟨more, onward⟩ := (second a).succeeded (changes.settled settled) rest keep
    refine ⟨changes.trans more, fun later since => ?_⟩
    rw [run_bind, again later (more.trans since)]
    exact onward later since
  · intro before stop after settled run
    rw [run_bind] at run
    split at run
    · next a middle stepped =>
      obtain ⟨changes, again⟩ := first.succeeded settled stepped trivial
      obtain ⟨more, onward⟩ := (second a).failed (changes.settled settled) run
      refine ⟨changes.trans more, ?_⟩
      rw [run_bind, again after more]
      exact onward
    · next stepped =>
      cases run
      obtain ⟨changes, again⟩ := first.failed settled stepped
      refine ⟨changes, ?_⟩
      rw [run_bind, again]

theorem repeats_ite {p : Prop} [Decidable p] {first second : Build α} {kept : α → Prop}
    (yes : p → Repeats kept first) (no : ¬ p → Repeats kept second) :
    Repeats kept (if p then first else second) := by
  split
  · next holds => exact yes holds
  · next fails => exact no fails

theorem resolveEnum_repeats (document : Document) (key : String) :
    Always (resolveEnum document key) := by
  constructor
  · intro before id after settled run _
    have changes := (resolveEnum_evolves document key).of_run run
    refine ⟨changes, fun later since => ?_⟩
    obtain ⟨e, member, rfl, rfl⟩ := resolveEnum_records run
    have whole : Changes before later := changes.trans since
    exact resolveEnum_known (whole.settled settled).consistent (since.continues.enums.subset member)
  · intro before stop after _ run
    obtain rfl := resolveEnum_failed run
    exact ⟨.refl, run⟩

structure NestedRepeats (nested : String → Build (Option String)) : Prop where
  always : ∀ key, Always (nested key)
  known : ∀ ⦃key before typeId after⦄, before.Settled →
    Yields (nested key) before (some typeId) after → ∃ s ∈ after.model.structs, s.id = typeId

variable {nested : String → Build (Option String)}

/-- How a nested type name is taken over where it is known. -/
theorem nestedType_run {row : RowRef} {key typeId : String} {before middle : Context}
    (run : (nested key).run before = (.ok (some typeId), middle)) :
    (nestedType nested row key).run before =
      if ((middle.model.struct? typeId).bind Struct.payloadField?).isSome then
        (.error (.diagnostic ⟨.nestedPayload typeId, some row⟩), middle)
      else (.ok typeId, middle.addSubstruct typeId) := by
  rw [nestedType, run_bind, run]
  dsimp only
  rw [run_get_bind]
  split <;> rfl

theorem nestedType_none_run {row : RowRef} {key : String} {before middle : Context}
    (run : (nested key).run before = (.ok none, middle)) :
    (nestedType nested row key).run before =
      (.error (.diagnostic ⟨.undeclaredStruct key, some row⟩), middle) := by
  rw [nestedType, run_bind, run]
  rfl

theorem nestedType_repeats (inner : NestedRepeats nested) (row : RowRef) (key : String) :
    Always (nestedType nested row key) := by
  constructor
  · intro before typeId after settled run _
    obtain ⟨result, middle, stepped, -⟩ := yields_bind.mp run
    obtain ⟨changes, again⟩ := (inner.always key).succeeded settled stepped trivial
    cases result with
    | none =>
      rw [Yields, nestedType_none_run stepped] at run
      cases run
    | some other =>
      rw [Yields, nestedType_run stepped] at run
      split at run
      · cases run
      · next plain =>
        cases run
        refine ⟨changes.tail (.substruct typeId), fun later since => ?_⟩
        have since' : Changes middle later := .head (.substruct typeId) since
        have sameStruct := since'.continues.struct? (inner.known settled stepped)
        have marked : later.addSubstruct typeId = later := by
          have whole : Changes before later := changes.trans since'
          have member : typeId ∈ later.model.substructs :=
            Changes.substructs since (Model.mem_insertName.mpr (.inl rfl))
          rw [Context.addSubstruct,
            Model.insertName_of_mem (whole.settled settled).ascending member]
        rw [nestedType_run (again later since'), sameStruct, if_neg plain, marked]
  · intro before stop after settled run
    cases stepped : (nested key).run before with
    | mk result middle =>
      cases result with
      | error other =>
        rw [nestedType, run_bind, stepped] at run
        cases run
        obtain ⟨changes, again⟩ := (inner.always key).failed settled stepped
        refine ⟨changes, ?_⟩
        rw [nestedType, run_bind, again]
      | ok found =>
        obtain ⟨changes, again⟩ := (inner.always key).succeeded settled stepped trivial
        have again := again middle .refl
        cases found with
        | none =>
          rw [nestedType_none_run stepped] at run
          cases run
          exact ⟨changes, nestedType_none_run again⟩
        | some typeId =>
          rw [nestedType_run stepped] at run
          split at run
          · next payload =>
            cases run
            refine ⟨changes, ?_⟩
            rw [nestedType_run again, if_pos payload]
          · cases run

theorem shapeField_repeats (document : Document) (inner : NestedRepeats nested) (o : Outline)
    (kind : TypeKind) (marker : Marker) (bitsBefore : Nat) :
    Always (shapeField document nested o kind marker bitsBefore) := by
  cases marker with
  | struct key =>
    exact (nestedType_repeats inner o.row key).bind fun _ => (still_pure _).repeats
  | enum key =>
    simp only [shapeField, failAt_bind]
    apply repeats_ite
    · exact fun _ => (still_failAt _ _).repeats
    · exact fun _ => (resolveEnum_repeats document key).bind fun _ => (still_pure _).repeats
  | payload | ldpc | string | fixed | none | template =>
    exact (shapeField_still document nested o kind bitsBefore (by simp) (by simp)).repeats

theorem buildField_repeats (document : Document) (inner : NestedRepeats nested) (row : RowRef)
    (siblings : List Field) (cell : TypeCell) (id : String) (marker : Marker) (bitsBefore : Nat) :
    Always (buildField document nested row siblings cell id marker bitsBefore) := by
  simp only [buildField, failAt_bind]
  apply repeats_ite
  · exact fun _ => (still_failAt _ _).repeats
  · intro _
    apply (resolveRepetition_still _ _ _ _).repeats.bind
    intro repetition
    apply (shapeField_repeats document inner _ _ _ _).bind
    intro field
    apply Still.repeats
    simp

def Rows.AreFields (rows : Rows) : Prop := ∃ draft, rows = .fields draft

theorem buildTemplated_failed {row : RowRef} {anchor typeCell name : String} {stop : Stop}
    {before after : Context}
    (run : (buildTemplated row anchor typeCell (Text.snakeCase name)).run before =
      (.error stop, after)) : after = before := by
  have ended := buildTemplated_end row anchor typeCell name before
  rw [run] at ended
  cases ended
  rfl

theorem buildRows_repeats (document : Document) (inner : NestedRepeats nested) (key : String)
    (name : Option String) (index : Nat) (rows : List FieldRow) (draft : Draft) :
    Repeats Rows.AreFields (buildRows document nested key name index rows draft) := by
  induction rows generalizing index draft with
  | nil => exact (still_pure (Rows.fields draft)).repeats
  | cons raw rest ih =>
    unfold buildRows
    apply (still_readableAt _ _ _).repeats.bind
    intro marker
    apply (still_readableAt _ _ _).repeats.bind
    intro label
    split
    · constructor
      · rintro before result after _ run ⟨draft, rfl⟩
        simp at run
      · intro before stop after _ run
        have unchanged := run
        rw [run_bind] at unchanged
        split at unchanged
        · cases unchanged
        · next failed =>
          cases unchanged
          obtain rfl := buildTemplated_failed failed
          exact ⟨.refl, run⟩
    · apply (still_readableAt _ _ _).repeats.bind
      intro cell
      apply (still_checked _).repeats.bind
      intro id
      apply (buildField_repeats document inner _ _ _ _ _ _).bind
      intro field
      apply (still_checked _).repeats.bind
      intro extended
      exact ih (index + 1) _

theorem finishStruct_failed {window : Nat} {key : String} {name : Option String} {role : Role}
    {draft : Draft} (made : draft.Made) {stop : Stop} {before after : Context}
    (run : (finishStruct window key name role draft).run before = (.error stop, after)) :
    after = before := by
  have ended := finishStruct_end window key name role made before
  rw [run] at ended
  cases ended
  rfl

theorem tableRows_repeats (document : Document) (window : Nat) (inner : NestedRepeats nested)
    (evolves : ∀ key, Evolves (nested key)) (key : String) (name : Option String) (role : Role) :
    Repeats (fun _ => False) (do
      match ← buildRows document nested key name 0 (document.fieldRows key) {} with
      | .templated => return .templated
      | .fields draft => finishStruct window key name role draft) := by
  have rows := buildRows_repeats document inner key name 0 (document.fieldRows key) {}
  constructor
  · intro before built after _ _ kept
    exact kept.elim
  · intro before stop after settled run
    rw [run_bind] at run
    split at run
    · next result middle read =>
      cases result with
      | templated => cases run
      | fields draft =>
        obtain ⟨changes, again⟩ := rows.succeeded settled read ⟨draft, rfl⟩
        have ended := buildRows_end document key name 0 (document.fieldRows key) evolves
          Draft.made_empty before
        rw [read] at ended
        cases ended with
        | fields _ made =>
          obtain rfl := finishStruct_failed made run
          refine ⟨changes, ?_⟩
          rw [run_bind, again after .refl]
          exact run
    · next read =>
      cases run
      obtain ⟨changes, again⟩ := rows.failed settled read
      refine ⟨changes, ?_⟩
      rw [run_bind, again]

theorem Context.Settled.push {context : Context} (settled : context.Settled) (key : String) :
    (context.push key).Settled :=
  ⟨{ settled.consistent with }, settled.ascending⟩

/-- The next attempt starts where the failed one ended. -/
theorem Repeats.whileInProgress_failed {step : Build α} {kept : α → Prop}
    (repeats : Repeats kept step) {key : String} {stop : Stop} {before after : Context}
    (settled : before.Settled)
    (run : (whileInProgress key step).run before = (.error stop, after)) :
    (∃ middle, Changes (before.push key) middle ∧ after = middle.pop) ∧
      (whileInProgress key step).run after = (.error stop, after) := by
  rw [run_whileInProgress] at run
  cases inside : step.run (before.push key) with
  | mk result middle =>
    rw [inside] at run
    cases run
    obtain ⟨changes, again⟩ := repeats.failed (settled.push key) inside
    have returned : middle.pop.push key = middle := by
      have stack := changes.inProgress
      rw [Context.pop, Context.push, stack, Context.push, List.dropLast_concat]
      exact congrArg (fun stack => { middle with inProgress := stack }) stack.symm
    refine ⟨⟨middle, changes, rfl⟩, ?_⟩
    rw [run_whileInProgress, returned, again]

def nestedStruct (document : Document) (window depth : Nat) (key : String) :
    Build (Option String) := do
  match ← buildTable document window depth key (some key) .nested with
  | .struct id => return some id
  | .templated | .empty => return none

theorem nestedStruct_evolves (document : Document) (window depth : Nat) (key : String) :
    Evolves (nestedStruct document window depth key) :=
  structId_evolves (TableEnd.evolves (buildTable_end document window depth key (some key) .nested))

theorem nestedStruct_repeats {document : Document} {window depth : Nat}
    (inner : ∀ key name role, Always (buildTable document window depth key name role)) :
    NestedRepeats (nestedStruct document window depth) := by
  constructor
  · intro key
    apply (inner key (some key) .nested).bind
    intro built
    cases built <;> exact (still_pure _).repeats
  · intro key before typeId after settled run
    obtain ⟨built, middle, building, run⟩ := yields_bind.mp run
    have ended := buildTable_end document window depth key (some key) .nested before
    rw [building] at ended
    cases ended with
    | built changes recorded =>
      cases built with
      | struct id =>
        cases run
        have consistent := (changes.settled settled).consistent
        obtain ⟨s, member, -, same⟩ := (consistent.built key typeId).mp recorded
        exact ⟨s, member, same⟩
      | templated => cases run
      | empty => cases run

/-- A table that is neither built nor being built is read row by row. -/
theorem buildTable_run {document : Document} {window depth : Nat} {key : String}
    {before : Context} (awaits : before.Awaits key) (name : Option String) (role : Role) :
    (buildTable document window (depth + 1) key name role).run before = ExceptT.run (do
      let built ← whileInProgress key do
        match ← buildRows document (nestedStruct document window depth) key name 0
          (document.fieldRows key) {} with
        | .templated => return .templated
        | .fields draft => finishStruct window key name role draft
      modify fun context => { context with built := context.built ++ [(key, built)] }
      return built) before := by
  have idle : ¬ before.inProgress.contains key = true := by simpa using awaits.idle
  rw [buildTable, run_get_bind, awaits.unbuilt]
  dsimp only
  rw [run_get_bind]
  simp only [fail_bind]
  rw [if_neg idle]
  rfl

/-- A table that is being built cannot be needed for it. -/
theorem buildTable_busy (document : Document) (window depth : Nat) {key : String}
    {before : Context} (unbuilt : before.built.lookup key = none) (busy : key ∈ before.inProgress)
    (name : Option String) (role : Role) :
    (buildTable document window (depth + 1) key name role).run before =
      (.error (.diagnostic { cause := .recursiveStruct key }), before) := by
  have busy : before.inProgress.contains key = true := by simpa using busy
  rw [buildTable, run_get_bind, unbuilt]
  dsimp only
  rw [run_get_bind]
  simp only [fail_bind]
  rw [if_pos busy]
  rfl

/-- Where a table is known or contains itself, nothing is read. -/
theorem buildTable_unchanged (document : Document) (window depth : Nat) {key : String}
    {before : Context} (blocked : ¬ before.Awaits key) (name : Option String) (role : Role) :
    ((buildTable document window (depth + 1) key name role).run before).2 = before := by
  cases known : before.built.lookup key with
  | some built => rw [buildTable_known known]
  | none =>
    have busy : key ∈ before.inProgress := by
      by_contra idle
      exact blocked ⟨known, idle⟩
    rw [buildTable_busy document window depth known busy]

/-- By induction on the depth, for tables at any level of nesting. -/
theorem buildTable_repeats (document : Document) (window depth : Nat) (key : String)
    (name : Option String) (role : Role) :
    Always (buildTable document window depth key name role) := by
  induction depth generalizing key name role with
  | zero => exact (still_fail _).repeats
  | succ depth ih =>
    constructor
    · intro before built after settled run _
      have ended := buildTable_end document window (depth + 1) key name role before
      rw [run] at ended
      cases ended with
      | built changes recorded =>
        refine ⟨changes, fun later since => ?_⟩
        exact buildTable_known (since.continues.lookup recorded) name role
    · intro before stop after settled run
      by_cases awaits : before.Awaits key
      · have rows := tableRows_repeats document window (nestedStruct_repeats ih)
          (nestedStruct_evolves document window depth) key name role
        rw [buildTable_run awaits, run_bind] at run
        split at run
        · cases run
        · next failed =>
          cases run
          obtain ⟨⟨middle, changes, rfl⟩, again⟩ := rows.whileInProgress_failed settled failed
          refine ⟨changes.pop, ?_⟩
          rw [buildTable_run (changes.awaits_pop awaits), run_bind, again]
      · have unchanged := buildTable_unchanged document window depth awaits name role
        rw [run] at unchanged
        obtain rfl : after = before := unchanged
        exact ⟨.refl, run⟩

/-- Where a table cannot be built, a second attempt right after the first one fails for the same
reason, with the same message and notes, and leaves the context as it found it, whatever calls were
made before. -/
theorem buildStruct_fails_again (document : Document) (window : Nat) (source : String)
    (calls : List Call) (key : String) (name : Option String) (role : Role) {stop : Stop}
    {after : Context}
    (failed : (buildStruct document window key name role).run
      (afterCalls document window (Context.new source) calls) = (.error stop, after)) :
    (buildStruct document window key name role).run after = (.error stop, after) := by
  have settled : (afterCalls document window (Context.new source) calls).Settled :=
    Changes.settled (changes_afterCalls _ calls) (settled_new source)
  have repeats : Always (buildStruct document window key name role) := by
    apply (buildTable_repeats document window _ key name role).bind
    intro built
    cases built <;> exact (still_pure _).repeats
  exact (repeats.failed settled failed).2

/-- The last row of the frame refers to a table without rows. -/
def brokenDocument : Document where
  structs := [
    ("frame", [
      ⟨"u(16)", "frame_descriptor", "'0x0010'"⟩,
      ⟨"u(8)", "mode", "enum\x7bMode\x7d"⟩,
      ⟨"u(24)", "point", "struct\x7bPoint\x7d"⟩,
      ⟨"u(8)", "rest", "struct\x7bNothing\x7d"⟩]),
    ("Point", [⟨"u(16)", "point_descriptor", "'0x0011'"⟩, ⟨"u(8)", "x", ""⟩])]
  enums := [("Mode", [⟨"OFF", "0x0"⟩])]

def brokenFrame : Option Stop × Context :=
  match (buildStruct brokenDocument 32 "frame" none .packet).run (Context.new "broken") with
  | (.error stop, after) => (some stop, after)
  | (.ok _, after) => (none, after)

theorem run_of_brokenFrame {stop : Stop} (stopped : brokenFrame.1 = some stop) :
    (buildStruct brokenDocument 32 "frame" none .packet).run (Context.new "broken") =
      (.error stop, brokenFrame.2) := by
  unfold brokenFrame at stopped ⊢
  split at stopped
  · next run =>
    rw [run]
    exact congrArg (fun stop => (Except.error stop, _)) (Option.some.inj stopped)
  · cases stopped

/-- An enumeration, a nested structure, its descriptor and the mark that it is nested are left. -/
theorem buildStruct_brokenFrame_again :
    brokenFrame = (some (.diagnostic ⟨.undeclaredStruct "Nothing", some ⟨"frame", 3⟩⟩), {
      model := {
        source := "broken"
        enums := [⟨"Mode", "Mode", [⟨"Off", 0⟩]⟩]
        structs := [⟨"Point", "Point", "point", .nested,
          [⟨"point_descriptor", .descriptor, 16, .none, some 0x11, false⟩,
            ⟨"x", .scalar false, 8, .none, none, false⟩], 24, some 0x11⟩]
        descriptors := ⟨[("point", 0x11)]⟩
        substructs := ["Point"] }
      built := [("Point", .struct "Point"), ("Nothing", .empty)] }) ∧
    (buildStruct brokenDocument 32 "frame" none .packet).run brokenFrame.2 =
      (.error (.diagnostic ⟨.undeclaredStruct "Nothing", some ⟨"frame", 3⟩⟩), brokenFrame.2) := by
  refine (and_iff_left_of_imp fun ended => ?_).mpr (by decide +kernel)
  exact buildStruct_fails_again brokenDocument 32 "broken" [] "frame" none .packet
    (run_of_brokenFrame (congrArg Prod.fst ended))

end Builder

end PacketSpec
