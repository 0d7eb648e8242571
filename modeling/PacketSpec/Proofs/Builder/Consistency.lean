import PacketSpec.Proofs.Builder.Evolution

/-! The parts of a context agree with each other after every call, whatever calls were made before
and whether or not they succeeded: outcomes with structures, structures and templated descriptors
with the descriptor table. What is built stays, and asking for it again changes nothing. -/
namespace PacketSpec.Builder

/-- The outcomes, the structures and the descriptor table say the same. -/
structure Context.Consistent (context : Context) : Prop where
  built : ∀ key id, context.built.lookup key = some (.struct id) ↔
    ∃ s ∈ context.model.structs, s.key = key ∧ s.id = id
  structKeys : (context.model.structs.map Struct.key).Nodup
  enumKeys : (context.model.enums.map Enum.key).Nodup
  descriptors : context.model.descriptors.entries.Perm
    (context.model.structs.filterMap Struct.registration ++
      context.model.templated.map TemplatedStruct.registration)
  kinds : (context.model.descriptors.entries.map Prod.fst).Nodup

theorem consistent_new (source : String) : (Context.new source).Consistent :=
  ⟨by simp [Context.new], by simp [Context.new], by simp [Context.new], by simp [Context.new],
    by simp [Context.new]⟩

/-- A table without an outcome has no structure. -/
theorem Context.Consistent.no_struct {context : Context} (consistent : context.Consistent)
    {key : String} (unbuilt : context.built.lookup key = none) :
    ∀ s ∈ context.model.structs, s.key ≠ key := by
  rintro s member rfl
  have built := (consistent.built s.key s.id).mpr ⟨s, member, rfl, rfl⟩
  rw [unbuilt] at built
  cases built

/-- An outcome that is no structure says nothing about the structures. -/
theorem Context.Consistent.built_record {context : Context} (consistent : context.Consistent)
    {key : String} (unbuilt : context.built.lookup key = none) {built : Built}
    (plain : ∀ id, built ≠ .struct id) (other id : String) :
    (context.record key built).built.lookup other = some (.struct id) ↔
      ∃ s ∈ context.model.structs, s.key = other ∧ s.id = id := by
  rw [lookup_record, ← consistent.built]
  by_cases same : other = key
  · subst same
    simp [unbuilt, plain]
  · simp [same]

theorem Context.Consistent.built_addStruct {context : Context} (consistent : context.Consistent)
    {s : Struct} (unbuilt : context.built.lookup s.key = none) (other id : String) :
    ((context.addStruct s).record s.key (.struct s.id)).built.lookup other = some (.struct id) ↔
      ∃ t ∈ context.model.structs ++ [s], t.key = other ∧ t.id = id := by
  have known := consistent.built other id
  rw [lookup_record]
  change ((context.built.lookup other).or _ = _) ↔ _
  by_cases same : other = s.key
  · subst same
    have absent := consistent.no_struct unbuilt
    simp only [unbuilt, if_true, Option.none_or, Option.some.injEq, Built.struct.injEq,
      List.mem_append, List.mem_singleton]
    constructor
    · rintro rfl
      exact ⟨s, .inr rfl, rfl, rfl⟩
    · rintro ⟨t, member | rfl, sameKey, sameId⟩
      · exact absurd sameKey (absent t member)
      · exact sameId
  · rw [if_neg same, Option.or_none, known]
    simp only [List.mem_append, List.mem_singleton]
    constructor
    · rintro ⟨t, member, facts⟩
      exact ⟨t, .inl member, facts⟩
    · rintro ⟨t, member | rfl, sameKey, sameId⟩
      · exact ⟨t, member, sameKey, sameId⟩
      · exact absurd sameKey.symm same

theorem Context.Consistent.kinds_concat {context : Context} (consistent : context.Consistent)
    {entry : String × Nat} (lacks : context.Lacks entry) :
    ((context.model.descriptors.entries ++ [entry]).map Prod.fst).Nodup := by
  rw [List.map_append]
  exact nodup_concat consistent.kinds (not_mem_of_lookup_eq_none lacks)

theorem Change.consistent {before after : Context} (change : Change before after)
    (consistent : before.Consistent) : after.Consistent := by
  cases change with
  | @enum e fresh made =>
    refine { consistent with enumKeys := ?_ }
    change ((before.model.enums ++ [e]).map Enum.key).Nodup
    rw [List.map_append]
    apply nodup_concat consistent.enumKeys
    intro member
    obtain ⟨other, found, same⟩ := List.mem_map.mp member
    exact fresh other found same
  | substruct typeId => exact { consistent with }
  | empty awaits =>
    exact { consistent with built := consistent.built_record awaits.unbuilt (by simp) }
  | @struct s awaits lacks made =>
    have descriptors : (before.model.descriptors.entries ++ s.registration.toList).Perm
        ((before.model.structs ++ [s]).filterMap Struct.registration ++
          before.model.templated.map TemplatedStruct.registration) := by
      have registered : [s].filterMap Struct.registration = s.registration.toList := by
        cases h : s.registration <;> simp [h]
      rw [List.filterMap_append, registered, List.append_assoc]
      apply (consistent.descriptors.append_right _).trans
      rw [List.append_assoc]
      exact List.perm_append_comm.append_left _
    refine ⟨consistent.built_addStruct awaits.unbuilt, ?_, consistent.enumKeys, descriptors, ?_⟩
    · change ((before.model.structs ++ [s]).map Struct.key).Nodup
      rw [List.map_append]
      apply nodup_concat consistent.structKeys
      intro member
      obtain ⟨other, found, same⟩ := List.mem_map.mp member
      exact consistent.no_struct awaits.unbuilt other found same
    · change ((before.model.descriptors.entries ++ s.registration.toList).map Prod.fst).Nodup
      cases registered : s.registration with
      | none => simpa using consistent.kinds
      | some entry => exact consistent.kinds_concat (lacks entry registered)
  | @templated key t awaits lacks template made =>
    have descriptors : (before.model.descriptors.entries ++ [t.registration]).Perm
        (before.model.structs.filterMap Struct.registration ++
          (before.model.templated ++ [t]).map TemplatedStruct.registration) := by
      rw [List.map_append, ← List.append_assoc]
      exact consistent.descriptors.append_right _
    exact ⟨consistent.built_record awaits.unbuilt (by simp), consistent.structKeys,
      consistent.enumKeys, descriptors, consistent.kinds_concat lacks⟩
  | template => exact { consistent with }

theorem Changes.consistent {before after : Context} (changes : Changes before after)
    (consistent : before.Consistent) : after.Consistent := by
  induction changes with
  | refl => exact consistent
  | tail _ change ih => exact change.consistent ih

/-- The second context has all of the first one, and what it has beyond that stands behind. -/
structure Context.Continues (context later : Context) : Prop where
  enums : context.model.enums <+: later.model.enums
  structs : context.model.structs <+: later.model.structs
  templated : context.model.templated <+: later.model.templated
  descriptors : context.model.descriptors.entries <+: later.model.descriptors.entries
  built : context.built <+: later.built

namespace Context.Continues

theorem refl (context : Context) : context.Continues context :=
  ⟨List.prefix_refl _, List.prefix_refl _, List.prefix_refl _, List.prefix_refl _,
    List.prefix_refl _⟩

theorem trans {a b c : Context} (first : a.Continues b) (second : b.Continues c) : a.Continues c :=
  ⟨first.enums.trans second.enums, first.structs.trans second.structs,
    first.templated.trans second.templated, first.descriptors.trans second.descriptors,
    first.built.trans second.built⟩

end Context.Continues

theorem Change.continues {before after : Context} (change : Change before after) :
    before.Continues after := by
  have same := Context.Continues.refl before
  cases change with
  | enum => exact { same with enums := List.prefix_append _ _ }
  | substruct => exact { same with }
  | empty => exact { same with built := List.prefix_append _ _ }
  | struct =>
    exact { same with
      structs := List.prefix_append _ _, descriptors := List.prefix_append _ _
      built := List.prefix_append _ _ }
  | templated =>
    exact { same with
      templated := List.prefix_append _ _, descriptors := List.prefix_append _ _
      built := List.prefix_append _ _ }
  | template => exact { same with }

theorem Changes.continues {before after : Context} (changes : Changes before after) :
    before.Continues after := by
  induction changes with
  | refl => exact .refl before
  | tail _ change ih => exact ih.trans change.continues

/-- An outcome that is recorded stays so. -/
theorem Context.Continues.lookup {context later : Context} (continues : context.Continues later)
    {key : String} {built : Built} (recorded : context.built.lookup key = some built) :
    later.built.lookup key = some built := lookup_of_prefix continues.built recorded

/-- A request of the analysis: the type name of an enumeration or of the structure of a table. -/
inductive Call where
  | enum (key : String)
  | struct (key : String) (name : Option String) (role : Role)

namespace Call

def run (document : Document) (window : Nat) : Call → Build (Option String)
  | .enum key => some <$> resolveEnum document key
  | .struct key name role => buildStruct document window key name role

def subject : Call → String ⊕ String
  | .enum key => .inl key
  | .struct key _ _ => .inr key

end Call

def afterCalls (document : Document) (window : Nat) (context : Context) (calls : List Call) :
    Context :=
  calls.foldl (fun context call => ((call.run document window).run context).2) context

variable {document : Document} {window : Nat}

theorem buildStruct_evolves (document : Document) (window : Nat) (key : String)
    (name : Option String) (role : Role) : Evolves (buildStruct document window key name role) :=
  structId_evolves (TableEnd.evolves (buildTable_end document window _ key name role))

theorem Call.evolves (call : Call) : Evolves (call.run document window) := by
  cases call with
  | enum key =>
    simp only [Call.run, map_eq_pure_bind]
    exact (resolveEnum_evolves document key).bind fun _ => (still_pure _).evolves
  | struct key name role => exact buildStruct_evolves document window key name role

theorem changes_afterCalls (context : Context) (calls : List Call) :
    Changes context (afterCalls document window context calls) := by
  induction calls generalizing context with
  | nil => exact .refl
  | cons call calls ih => exact (call.evolves context).trans (ih _)

def Built.structId? : Built → Option String
  | .struct id => some id
  | .templated | .empty => none

theorem buildStruct_eq (key : String) (name : Option String) (role : Role) :
    buildStruct document window key name role =
      Built.structId? <$> build document window key name role := by
  rw [map_eq_pure_bind]
  unfold buildStruct
  congr
  funext built
  cases built <;> rfl

theorem resolveEnum_known {context : Context} (consistent : context.Consistent) {e : Enum}
    (member : e ∈ context.model.enums) :
    (resolveEnum document e.key).run context = (.ok e.id, context) := by
  unfold resolveEnum
  rw [run_get_bind, find?_of_nodup consistent.enumKeys member]
  rfl

theorem buildTable_known {context : Context} {key : String} {built : Built} {depth : Nat}
    (recorded : context.built.lookup key = some built) (name : Option String) (role : Role) :
    (buildTable document window (depth + 1) key name role).run context = (.ok built, context) := by
  rw [buildTable, run_get_bind, recorded]
  rfl

theorem buildStruct_known {context : Context} {key : String} {built : Built}
    (recorded : context.built.lookup key = some built) (name : Option String) (role : Role) :
    (buildStruct document window key name role).run context = (.ok built.structId?, context) := by
  have known : (build document window key name role).run context = (.ok built, context) :=
    buildTable_known recorded name role
  rw [buildStruct_eq, map_eq_pure_bind, run_bind, known]
  rfl

theorem resolveEnum_records {key id : String} {context after : Context}
    (run : Yields (resolveEnum document key) context id after) :
    ∃ e ∈ after.model.enums, e.key = key ∧ e.id = id := by
  have ended := resolveEnum_end document key context
  rw [run] at ended
  cases ended with
  | @known e found =>
    have sameKey : e.key = key := by simpa using List.find?_some found
    exact ⟨e, List.mem_of_find?_eq_some found, sameKey, rfl⟩
  | added sameKey =>
    exact ⟨_, List.mem_append_right _ (List.mem_singleton_self _), sameKey, rfl⟩

theorem build_records {key : String} {name : Option String} {role : Role} {built : Built}
    {context after : Context}
    (run : Yields (build document window key name role) context built after) :
    after.built.lookup key = some built := by
  have ended := buildTable_end document window (document.structs.length + 2) key name role context
  change TableEnd key context ((build document window key name role).run context) at ended
  rw [run] at ended
  cases ended with
  | built _ recorded => exact recorded

theorem resolveEnum_failed {key : String} {stop : Stop} {context after : Context}
    (run : (resolveEnum document key).run context = (.error stop, after)) : after = context := by
  have ended := resolveEnum_end document key context
  rw [run] at ended
  cases ended
  rfl

/-- A call that succeeded is answered in the same way ever after. -/
theorem Call.run_again {call again : Call} {result : Option String} {context after later : Context}
    (run : Yields (call.run document window) context result after)
    (continues : after.Continues later) (consistent : later.Consistent)
    (same : again.subject = call.subject) :
    (again.run document window).run later = (.ok result, later) := by
  cases call with
  | enum key =>
    obtain ⟨id, resolved, rfl⟩ := yields_map.mp run
    obtain ⟨e, member, rfl, rfl⟩ := resolveEnum_records resolved
    cases again with
    | struct => cases same
    | enum other =>
      obtain rfl : other = e.key := Sum.inl.inj same
      have known : (resolveEnum document e.key).run later = _ :=
        resolveEnum_known consistent (continues.enums.subset member)
      simp only [Call.run, map_eq_pure_bind]
      rw [run_bind, known]
      rfl
  | struct key name role =>
    simp only [Call.run, buildStruct_eq] at run
    obtain ⟨built, building, rfl⟩ := yields_map.mp run
    cases again with
    | enum => cases same
    | struct other name role =>
      obtain rfl : other = key := Sum.inr.inj same
      exact buildStruct_known (continues.lookup (build_records building)) name role

/-- After any calls, failed ones among them, no table is left in progress and the parts of the
context agree. Later calls only append to it, a failed enumeration changes nothing, and what is
known is returned as it was recorded, whatever name and role are proposed. -/
theorem calls_keep_consistent (document : Document) (window : Nat) (source : String)
    (calls : List Call) :
    let context := afterCalls document window (Context.new source) calls
    context.inProgress = [] ∧ context.Consistent ∧
    (∀ more, context.Continues (afterCalls document window context more)) ∧
    (∀ key stop after, (resolveEnum document key).run context = (.error stop, after) →
      after = context) ∧
    (∀ e ∈ context.model.enums,
      (resolveEnum document e.key).run context = (.ok e.id, context)) ∧
    (∀ key built, context.built.lookup key = some built → ∀ name role,
      (buildStruct document window key name role).run context = (.ok built.structId?, context)) ∧
    (∀ (call : Call) result after, (call.run document window).run context = (.ok result, after) →
      ∀ more (again : Call), again.subject = call.subject →
        let later := afterCalls document window after more
        (again.run document window).run later = (.ok result, later)) := by
  intro context
  have changes : Changes (Context.new source) context := changes_afterCalls _ calls
  have consistent := changes.consistent (consistent_new source)
  refine ⟨changes.inProgress, consistent, ?_, ?_, ?_, ?_, ?_⟩
  · intro more
    exact (changes_afterCalls context more).continues
  · intro key stop after run
    exact resolveEnum_failed run
  · intro e member
    exact resolveEnum_known consistent member
  · intro key built recorded name role
    exact buildStruct_known recorded name role
  · intro call result after run more again same
    have first : Changes context after := call.evolves.of_run run
    have rest : Changes after (afterCalls document window after more) :=
      changes_afterCalls after more
    exact Call.run_again run rest.continues (rest.consistent (first.consistent consistent)) same

end PacketSpec.Builder
