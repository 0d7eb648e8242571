import PacketSpec.Proofs.Builder.Consistency
import PacketSpec.Proofs.Builder.Table

/-! Which types are marked as nested. A row that refers to a table marks the type of that table at
once, before it is known whether a structure is made of the rows: the marks of a table without a
structure stay behind. -/
namespace PacketSpec

def Shape.structType? : Shape → Option String
  | .struct typeId => some typeId
  | _ => none

theorem Shape.structType?_eq_some {shape : Shape} {typeId : String} :
    shape.structType? = some typeId ↔ shape = .struct typeId := by
  cases shape <;> simp [Shape.structType?]

def structTypes (fields : List Field) : List String := fields.filterMap (·.shape.structType?)

theorem mem_structTypes {fields : List Field} {typeId : String} :
    typeId ∈ structTypes fields ↔ ∃ field ∈ fields, field.shape = .struct typeId := by
  simp [structTypes, Shape.structType?_eq_some]

theorem structTypes_concat (fields : List Field) (field : Field) :
    structTypes (fields ++ [field]) = structTypes fields ++ field.shape.structType?.toList := by
  rw [structTypes, List.filterMap_append]
  cases found : field.shape.structType? <;> simp [structTypes, found]

namespace Builder

open Cell (TypeCell TypeKind Marker)

def typeOf? (outcomes : List (String × Built)) (key : String) : Option String :=
  (outcomes.lookup key).bind Built.structId?

def markerType? (outcomes : List (String × Built)) : Marker → Option String
  | .struct key => typeOf? outcomes key
  | _ => none

def isTemplate : Marker → Bool
  | .template _ => true
  | _ => false

/-- The markers of the rows that are read as fields: those before a row with a template. -/
def fieldMarkers (rows : List FieldRow) : List Marker :=
  (rows.filterMap fun raw => (Cell.readMarker raw.value).toOption).takeWhile (!isTemplate ·)

def rowTypes (outcomes : List (String × Built)) (rows : List FieldRow) : List String :=
  (fieldMarkers rows).filterMap (markerType? outcomes)

def tableTypes (document : Document) (outcomes : List (String × Built)) (key : String) :
    List String :=
  rowTypes outcomes (document.fieldRows key)

theorem rowTypes_template {outcomes : List (String × Built)} {raw : FieldRow} {anchor : String}
    (read : Cell.readMarker raw.value = .ok (.template anchor)) (rest : List FieldRow) :
    rowTypes outcomes (raw :: rest) = [] := by
  simp [rowTypes, fieldMarkers, read, Except.toOption, isTemplate]

theorem fieldMarkers_cons {raw : FieldRow} {marker : Marker}
    (read : Cell.readMarker raw.value = .ok marker)
    (notTemplate : ∀ anchor, marker ≠ .template anchor) (rest : List FieldRow) :
    fieldMarkers (raw :: rest) = marker :: fieldMarkers rest := by
  have isField : isTemplate marker = false := by
    cases marker with
    | template anchor => exact absurd rfl (notTemplate anchor)
    | none | payload | ldpc | struct | enum | string | fixed => rfl
  simp [fieldMarkers, read, Except.toOption, isField]

theorem rowTypes_cons {outcomes : List (String × Built)} {raw : FieldRow} {marker : Marker}
    (read : Cell.readMarker raw.value = .ok marker)
    (notTemplate : ∀ anchor, marker ≠ .template anchor) (rest : List FieldRow) :
    rowTypes outcomes (raw :: rest) =
      (markerType? outcomes marker).toList ++ rowTypes outcomes rest := by
  rw [rowTypes, fieldMarkers_cons read notTemplate]
  cases typed : markerType? outcomes marker <;> simp [rowTypes, typed]

/-- The marked types are those that the tables with an outcome nest and the `pending` ones, of rows
whose table has no outcome yet. A structure nests what its table does. The outcomes that give the
types are those at the end, of which every context on the way has a first part. -/
structure Marked (document : Document) (outcomes : List (String × Built)) (pending : List String)
    (context : Context) : Prop where
  substructs : ∀ typeId, typeId ∈ context.model.substructs ↔
    typeId ∈ pending ∨ ∃ entry ∈ context.built, typeId ∈ tableTypes document outcomes entry.1
  structs : ∀ s ∈ context.model.structs, structTypes s.fields = tableTypes document outcomes s.key

variable {α β : Type} {document : Document} {outcomes : List (String × Built)}
  {pending : List String} {before after : Context}

theorem marked_new (source : String) : Marked document outcomes [] (Context.new source) :=
  ⟨by simp [Context.new], by simp [Context.new]⟩

structure Context.SameMarks (before after : Context) : Prop where
  substructs : after.model.substructs = before.model.substructs
  structs : after.model.structs = before.model.structs
  built : after.built = before.built

theorem Context.SameMarks.refl (context : Context) : context.SameMarks context := ⟨rfl, rfl, rfl⟩

theorem Marked.congr (marked : Marked document outcomes pending before)
    (same : before.SameMarks after) : Marked document outcomes pending after := by
  constructor
  · rw [same.substructs, same.built]
    exact marked.substructs
  · rw [same.structs]
    exact marked.structs

theorem Marked.addSubstruct (marked : Marked document outcomes pending before) (typeId : String) :
    Marked document outcomes (pending ++ [typeId]) (before.addSubstruct typeId) where
  substructs other := by
    have known := marked.substructs other
    simp only [Context.addSubstruct, Model.mem_insertName, known, List.mem_append,
      List.mem_singleton]
    rw [or_assoc, or_left_comm]
  structs := marked.structs

theorem Marked.addStruct (marked : Marked document outcomes pending before) {s : Struct}
    (types : structTypes s.fields = tableTypes document outcomes s.key) :
    Marked document outcomes pending (before.addStruct s) :=
  ⟨marked.substructs, forall_concat marked.structs types⟩

/-- With its outcome, the pending types of a table become its own. -/
theorem Marked.record {key : String}
    (marked : Marked document outcomes (pending ++ tableTypes document outcomes key) before)
    (built : Built) : Marked document outcomes pending (before.record key built) where
  substructs typeId := by
    have known := marked.substructs typeId
    simp only [Context.record, List.mem_append, List.mem_singleton] at known ⊢
    rw [known]
    constructor
    · rintro ((waiting | own) | ⟨entry, member, nested⟩)
      · exact .inl waiting
      · exact .inr ⟨(key, built), .inr rfl, own⟩
      · exact .inr ⟨entry, .inl member, nested⟩
    · rintro (waiting | ⟨entry, member | rfl, nested⟩)
      · exact .inl (.inl waiting)
      · exact .inr ⟨entry, member, nested⟩
      · exact .inl (.inr nested)
  structs := marked.structs

theorem Change.builtKeys {before after : Context} (change : Change before after)
    (distinct : (before.built.map Prod.fst).Nodup) : (after.built.map Prod.fst).Nodup := by
  have extended {key : String} (built : Built) (awaits : before.Awaits key) :
      ((before.built ++ [(key, built)]).map Prod.fst).Nodup := by
    rw [List.map_append]
    exact nodup_concat distinct (not_mem_of_lookup_eq_none awaits.unbuilt)
  cases change with
  | empty awaits => exact extended .empty awaits
  | @struct s awaits => exact extended (.struct s.id) awaits
  | templated awaits => exact extended .templated awaits
  | enum | substruct | template => exact distinct

theorem Changes.builtKeys {before after : Context} (changes : Changes before after)
    (distinct : (before.built.map Prod.fst).Nodup) : (after.built.map Prod.fst).Nodup := by
  induction changes with
  | refl => exact distinct
  | tail _ change ih => exact change.builtKeys ih

def Keeps (document : Document) (outcomes : List (String × Built)) (step : Build α) : Prop :=
  ∀ ⦃before a after pending⦄, Yields step before a after → after.built <+: outcomes →
    Marked document outcomes pending before → Marked document outcomes pending after

theorem Keeps.bind {step : Build α} {next : α → Build β} (first : Keeps document outcomes step)
    (evolves : ∀ a, Evolves (next a)) (second : ∀ a, Keeps document outcomes (next a)) :
    Keeps document outcomes (step >>= next) := by
  intro before b after pending run recorded marked
  obtain ⟨a, middle, started, ended⟩ := yields_bind.mp run
  have grows := ((evolves a).of_run ended).continues.built
  exact second a ended recorded (first started (grows.trans recorded) marked)

theorem Still.keeps {step : Build α} (still : Still step) : Keeps document outcomes step := by
  intro before a after pending run _ marked
  obtain rfl := still.eq_of_run run
  exact marked

structure Nests (document : Document) (outcomes : List (String × Built))
    (nested : String → Build (Option String)) : Prop where
  evolves : ∀ key, Evolves (nested key)
  keeps : ∀ key, Keeps document outcomes (nested key)
  typed : ∀ ⦃key before typeId after⦄, Yields (nested key) before (some typeId) after →
    typeOf? after.built key = some typeId

theorem typeOf?_of_prefix {built : List (String × Built)} (recorded : built <+: outcomes)
    {key typeId : String} (known : typeOf? built key = some typeId) :
    typeOf? outcomes key = some typeId := by
  obtain ⟨outcome, found, named⟩ := Option.bind_eq_some_iff.mp known
  exact Option.bind_eq_some_iff.mpr ⟨outcome, lookup_of_prefix recorded found, named⟩

variable {nested : String → Build (Option String)}

theorem nestedType_marks (nests : Nests document outcomes nested) {row : RowRef} {key : String}
    {typeId : String} (run : Yields (nestedType nested row key) before typeId after)
    (recorded : after.built <+: outcomes) (marked : Marked document outcomes pending before) :
    Marked document outcomes (pending ++ [typeId]) after ∧
      typeOf? outcomes key = some typeId := by
  obtain ⟨result, middle, inner, run⟩ := yields_bind.mp run
  cases result with
  | none => exact (yields_failAt run).elim
  | some found =>
    simp only [yields_bind, yields_get, yields_ite, yields_failAt, false_and, exists_false,
      and_false, false_or, yields_modifyModel, yields_pure] at run
    obtain ⟨_, _, ⟨rfl, rfl⟩, -, _, _, rfl, rfl, rfl⟩ := run
    constructor
    · exact (nests.keeps key inner recorded marked).addSubstruct _
    · have typed := nests.typed inner
      exact typeOf?_of_prefix recorded typed

/-- Only a row with a structure changes marks. -/
theorem shapeField_same {o : Outline} {kind : TypeKind} {marker : Marker} {bitsBefore : Nat}
    {field : Field} (notStruct : ∀ key, marker ≠ .struct key)
    (run : Yields (shapeField document nested o kind marker bitsBefore) before field after) :
    before.SameMarks after := by
  by_cases isEnum : ∃ key, marker = .enum key
  · obtain ⟨key, rfl⟩ := isEnum
    simp only [shapeField, yields_ite, yields_bind, yields_failAt, yields_pure, false_and,
      exists_false, and_false, false_or] at run
    obtain ⟨-, _, _, named, -, rfl⟩ := run
    have ended := resolveEnum_end document key before
    rw [named] at ended
    cases ended with
    | known => exact .refl _
    | added => exact ⟨rfl, rfl, rfl⟩
  · have notEnum : ∀ key, marker ≠ .enum key := fun key same => isEnum ⟨key, same⟩
    obtain rfl := (shapeField_still document nested o kind bitsBefore notStruct notEnum).eq_of_run run
    exact .refl _

theorem buildField_marks (nests : Nests document outcomes nested) {row : RowRef}
    {siblings : List Field} {cell : TypeCell} {id : String} {marker : Marker} {bitsBefore : Nat}
    {field : Field}
    (run : Yields (buildField document nested row siblings cell id marker bitsBefore)
      before field after)
    (recorded : after.built <+: outcomes) (marked : Marked document outcomes pending before) :
    Marked document outcomes (pending ++ field.shape.structType?.toList) after ∧
      field.shape.structType? = markerType? outcomes marker := by
  rcases (buildField_yields run).2.2 with ⟨key, typeId, rfl, shape, inner⟩ | ⟨notStruct, shape⟩
  · have typed := Shape.structType?_eq_some.mpr shape
    obtain ⟨marked, known⟩ := nestedType_marks nests inner recorded marked
    rw [typed]
    exact ⟨marked, known.symm⟩
  · have untyped : field.shape.structType? = none := by
      apply Option.eq_none_iff_forall_ne_some.mpr
      intro typeId typed
      exact shape typeId (Shape.structType?_eq_some.mp typed)
    have unmarked : markerType? outcomes marker = none := by
      cases marker with
      | struct key => exact absurd rfl (notStruct key)
      | none | payload | ldpc | enum | string | fixed | template => rfl
    simp only [buildField, yields_ite, yields_bind, yields_failAt, yields_pure, false_and,
      exists_false, and_false, false_or] at run
    obtain ⟨-, _, _, resolved, _, _, shaped, -, -, rfl⟩ := run
    obtain ⟨rfl, -⟩ := resolveRepetition_yields resolved
    rw [untyped, unmarked, Option.toList_none, List.append_nil]
    exact ⟨marked.congr (shapeField_same notStruct shaped), rfl⟩

theorem buildRows_built (inner : ∀ key, Evolves (nested key)) {key : String}
    {name : Option String} {rows : List FieldRow} {index : Nat} {draft : Draft} {result : Rows}
    (run : Yields (buildRows document nested key name index rows draft) before result after) :
    before.built <+: after.built := by
  induction rows generalizing before index draft with
  | nil =>
    obtain ⟨-, rfl⟩ := yields_pure.mp run
    exact List.prefix_refl _
  | cons raw rest ih =>
    simp only [buildRows, yields_bind, yields_readableAt] at run
    obtain ⟨marker, _, ⟨-, rfl⟩, label, before, ⟨-, rfl⟩, run⟩ := run
    split at run
    · next anchor =>
      simp only [yields_bind, yields_pure] at run
      obtain ⟨_, _, templated, -, rfl⟩ := run
      have ended := buildTemplated_end ⟨key, index⟩ anchor raw.type label before
      rw [templated] at ended
      cases ended
      exact List.prefix_refl _
    · simp only [yields_bind, yields_readableAt, yields_checked] at run
      obtain ⟨cell, _, ⟨-, rfl⟩, id, _, ⟨-, rfl⟩, field, middle, built, extended, _, ⟨-, rfl⟩,
        run⟩ := run
      have changes := Evolves.of_run (buildField_evolves _ _ _ _ _ _ _ inner) built
      exact changes.continues.built.trans (ih run)

/-- By induction on the rows: each one that is read adds the type that it nests, to the marks and
to the draft. -/
theorem buildRows_marks (nests : Nests document outcomes nested) {key : String}
    {name : Option String} {rows : List FieldRow} {index : Nat} {draft : Draft} {result : Rows}
    (run : Yields (buildRows document nested key name index rows draft) before result after)
    (recorded : after.built <+: outcomes) (marked : Marked document outcomes pending before) :
    Marked document outcomes (pending ++ rowTypes outcomes rows) after ∧
      ∀ finished, result = .fields finished →
        structTypes finished.fields = structTypes draft.fields ++ rowTypes outcomes rows := by
  induction rows generalizing before index draft pending with
  | nil =>
    obtain ⟨rfl, rfl⟩ := yields_pure.mp run
    have empty : rowTypes outcomes [] = [] := rfl
    rw [empty, List.append_nil, List.append_nil]
    constructor
    · exact marked
    · rintro finished ⟨⟩
      rfl
  | cons raw rest ih =>
    simp only [buildRows, yields_bind, yields_readableAt] at run
    obtain ⟨marker, _, ⟨read, rfl⟩, label, before, ⟨-, rfl⟩, run⟩ := run
    split at run
    · next anchor =>
      simp only [yields_bind, yields_pure] at run
      obtain ⟨_, _, templated, rfl, rfl⟩ := run
      have ended := buildTemplated_end ⟨key, index⟩ anchor raw.type label before
      rw [templated] at ended
      cases ended
      rw [rowTypes_template read, List.append_nil]
      exact ⟨marked.congr ⟨rfl, rfl, rfl⟩, by simp⟩
    · next notTemplate =>
      simp only [yields_bind, yields_readableAt, yields_checked] at run
      obtain ⟨cell, _, ⟨-, rfl⟩, id, _, ⟨-, rfl⟩, field, middle, built, extended, _,
        ⟨added, rfl⟩, run⟩ := run
      have grows := buildRows_built nests.evolves run
      obtain ⟨marked, typed⟩ := buildField_marks nests built (grows.trans recorded) marked
      obtain ⟨marked, finished⟩ := ih run marked
      obtain ⟨fields, -, -⟩ := add_eq_ok added
      rw [fields, structTypes_concat] at finished
      rw [rowTypes_cons read notTemplate, ← typed, ← List.append_assoc, ← List.append_assoc]
      exact ⟨marked, finished⟩

/-- The rows of a table are read and finished; then its outcome takes over what they marked. -/
theorem tableRows_marks (nests : Nests document outcomes nested) {window : Nat} {key : String}
    {name : Option String} {role : Role} {result : Rows} {middle : Context} {built : Built}
    (read : Yields (buildRows document nested key name 0 (document.fieldRows key) {})
      (before.push key) result middle)
    (finished : Yields (match result with
      | .templated => return .templated
      | .fields draft => finishStruct window key name role draft) middle built after)
    (recorded : after.built <+: outcomes) (marked : Marked document outcomes pending before) :
    Marked document outcomes (pending ++ tableTypes document outcomes key) after := by
  have opened : Marked document outcomes pending (before.push key) :=
    marked.congr ⟨rfl, rfl, rfl⟩
  have rows := buildRows_end document key name 0 (document.fieldRows key) nests.evolves
    Draft.made_empty (before.push key)
  rw [read] at rows
  cases rows with
  | templated =>
    obtain ⟨-, rfl⟩ := yields_pure.mp finished
    exact (buildRows_marks nests read recorded opened).1
  | @fields draft _ changes made =>
    have ended := finishStruct_end window key name role made middle
    rw [finished] at ended
    cases ended with
    | empty => exact (buildRows_marks nests read recorded opened).1
    | struct key_eq fields_eq =>
      obtain ⟨marked, types⟩ := buildRows_marks nests read recorded opened
      apply marked.addStruct
      rw [fields_eq, key_eq]
      exact types draft rfl

theorem structId_nests {step : String → Build Built}
    (ends : ∀ key before, TableEnd key before ((step key).run before))
    (keeps : ∀ key, Keeps document outcomes (step key)) :
    Nests document outcomes fun key => do
      match ← step key with
      | .struct id => return some id
      | .templated | .empty => return none where
  evolves key := structId_evolves (TableEnd.evolves (ends key))
  keeps key := by
    intro before result after pending run recorded marked
    obtain ⟨built, middle, first, run⟩ := yields_bind.mp run
    cases built <;> obtain ⟨-, rfl⟩ := yields_pure.mp run <;> exact keeps key first recorded marked
  typed key before typeId after run := by
    obtain ⟨built, middle, first, run⟩ := yields_bind.mp run
    cases built with
    | struct id =>
      obtain ⟨same, rfl⟩ := yields_pure.mp run
      have ended := ends key before
      rw [first] at ended
      cases ended with
      | built _ recorded => simp [typeOf?, recorded, Built.structId?, same]
    | templated | empty => cases (yields_pure.mp run).1

/-- By induction on the depth, as the tables are nested. -/
theorem buildTable_keeps (window depth : Nat) (key : String) (name : Option String) (role : Role) :
    Keeps document outcomes (buildTable document window depth key name role) := by
  induction depth generalizing key name role with
  | zero => exact fun _ _ _ _ run => (yields_fail run).elim
  | succ depth ih =>
    intro before built after pending run recorded marked
    simp only [buildTable, yields_bind, yields_get] at run
    obtain ⟨_, _, ⟨rfl, rfl⟩, run⟩ := run
    split at run
    · obtain ⟨-, rfl⟩ := yields_pure.mp run
      exact marked
    · simp only [yields_ite, yields_bind, yields_fail, false_and, exists_false, and_false, false_or,
        yields_get, yields_whileInProgress, yields_modify, yields_pure] at run
      obtain ⟨_, current, ⟨rfl, rfl⟩, -, _, _, ⟨ended, ⟨rows, filled, read, finished⟩, rfl⟩, _, _,
        rfl, rfl, rfl⟩ := run
      have nests := structId_nests
        (fun key => buildTable_end document window depth key (some key) .nested)
        (fun key => ih key (some key) .nested)
      have grows : ended.built <+: outcomes := (List.prefix_append _ _).trans recorded
      have closed : Marked document outcomes (pending ++ tableTypes document outcomes key) ended.pop :=
        (tableRows_marks nests read finished grows marked).congr ⟨rfl, rfl, rfl⟩
      exact closed.record built

end Builder

end PacketSpec
