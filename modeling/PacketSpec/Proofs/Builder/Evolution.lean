import PacketSpec.Proofs.Builder.Change
import PacketSpec.Proofs.Keyed

/-! Building a table is a sequence of changes, whichever row it fails at and however deep the
tables are nested. -/
namespace PacketSpec.Builder

open Cell (TypeCell TypeKind Marker)

variable {α : Type}

theorem buildMember_made {key : String} {members extended : List EnumMember} {row : MemberRow}
    {before after : Context} (run : Yields (buildMember key members row) before extended after)
    (made : ∀ member ∈ members, member.Made) : ∀ member ∈ extended, member.Made := by
  simp only [buildMember, fail_bind, yields_bind, yields_ite, yields_readable, yields_fail,
    and_false, false_or] at run
  obtain ⟨name, _, -, valid, value, _, -, -, run⟩ := run
  simp only [Bool.not_eq_true', Bool.not_eq_false] at valid
  split at run
  · exact (yields_fail run).elim
  · obtain ⟨rfl, -⟩ := yields_pure.mp run
    intro member found
    obtain earlier | same := List.mem_append.mp found
    · exact made member earlier
    · exact List.mem_singleton.mp same ▸ ⟨valid, Text.isSimple_camelCase name⟩

theorem buildMembers_made {key : String} {rows : List MemberRow}
    {members extended : List EnumMember} {before after : Context}
    (run : Yields (rows.foldlM (buildMember key) members) before extended after)
    (made : ∀ member ∈ members, member.Made) : ∀ member ∈ extended, member.Made := by
  induction rows generalizing before members with
  | nil =>
    obtain ⟨rfl, -⟩ := yields_pure.mp run
    exact made
  | cons row rows ih =>
    rw [List.foldlM_cons, yields_bind] at run
    obtain ⟨next, middle, first, rest⟩ := run
    exact ih rest (buildMember_made first made)

inductive EnumEnd (key : String) (before : Context) : Except Stop String × Context → Prop
  | known {e : Enum} (found : before.model.enums.find? (·.key == key) = some e) :
      EnumEnd key before (.ok e.id, before)
  | stopped (stop : Stop) : EnumEnd key before (.error stop, before)
  | added {e : Enum} (key_eq : e.key = key)
      (fresh : ∀ other ∈ before.model.enums, other.key ≠ e.key) (made : e.Made) :
      EnumEnd key before (.ok e.id, before.addEnum e)

theorem resolveEnum_end (document : Document) (key : String) (before : Context) :
    EnumEnd key before ((resolveEnum document key).run before) := by
  unfold resolveEnum
  rw [run_get_bind]
  split
  · next e found => exact .known found
  · next fresh =>
    by_cases valid : Text.isIdentifier (Text.camelCase key) = true
    · simp only [valid, Bool.not_true, Bool.false_eq_true, if_false]
      split
      · exact .stopped _
      · next rows _ =>
        apply Still.outcome_bind (Still.foldlM (buildMember_still key))
        · exact .stopped
        · intro members read
          apply EnumEnd.added (e := ⟨key, Text.camelCase key, members⟩) rfl
          · simpa using fresh
          · exact ⟨valid, buildMembers_made read (by simp)⟩
    · simp only [valid, Bool.not_false, if_true, fail_bind]
      exact .stopped _

theorem resolveEnum_evolves (document : Document) (key : String) :
    Evolves (resolveEnum document key) := by
  intro before
  have ended := resolveEnum_end document key before
  generalize (resolveEnum document key).run before = outcome at ended
  cases ended with
  | known => exact .refl
  | stopped => exact .refl
  | added _ fresh made => exact .single (.enum fresh made)

theorem nestedType_evolves {nested : String → Build (Option String)} (row : RowRef) (key : String)
    (inner : ∀ key, Evolves (nested key)) : Evolves (nestedType nested row key) := by
  apply Evolves.bind (inner key)
  intro result
  cases result with
  | none => exact (still_failAt _ _).evolves
  | some typeId =>
    intro before
    rw [run_get_bind]
    simp only [failAt_bind]
    split
    · exact .refl
    · exact .single (.substruct typeId)

/-- Only nested structures and enumerations depend on the context. -/
theorem shapeField_still (document : Document) (nested : String → Build (Option String))
    (o : Outline) (kind : TypeKind) {marker : Marker} (bitsBefore : Nat)
    (notStruct : ∀ key, marker ≠ .struct key) (notEnum : ∀ key, marker ≠ .enum key) :
    Still (shapeField document nested o kind marker bitsBefore) := by
  cases marker with
  | payload => exact still_pure _
  | ldpc codeBits messageBits => exact (checkParity_still _ _ _).bind fun _ => still_pure _
  | struct key => exact absurd rfl (notStruct key)
  | enum key => exact absurd rfl (notEnum key)
  | string =>
    simp only [shapeField, failAt_bind, still_ite, still_failAt, implies_true, true_and]
    intro _
    split
    · exact still_pure _
    · exact (still_checked _).bind fun _ => still_pure _
    · simp
  | fixed value =>
    apply (typedShape_still o kind).bind
    intro shape
    exact (fixedValue_still o shape value).bind fun _ => still_pure _
  | none | template => exact (typedShape_still o kind).bind fun _ => still_pure _

theorem typedShape_ne_struct {o : Outline} {kind : TypeKind} {shape : Shape}
    {before after : Context} (run : Yields (typedShape o kind) before shape after)
    (typeId : String) : shape ≠ .struct typeId := by
  rintro rfl
  simp [typedShape] at run

theorem typedShape_ne_parity {o : Outline} {kind : TypeKind} {shape : Shape}
    {before after : Context} (run : Yields (typedShape o kind) before shape after)
    (code : LdpcCode) : shape ≠ .parity code := by
  rintro rfl
  simp [typedShape] at run

/-- How the field of a row comes from its marker. Only the marker of a structure gives a field of
that kind, and its type is the one that was nested. A parity covers the bits before it. -/
theorem shapeField_yields {document : Document} {nested : String → Build (Option String)}
    {o : Outline} {kind : TypeKind} {marker : Marker} {bitsBefore : Nat} {field : Field}
    {before after : Context}
    (run : Yields (shapeField document nested o kind marker bitsBefore) before field after) :
    field.id = o.id ∧ field.Covers bitsBefore ∧
      ((∃ key typeId, marker = .struct key ∧ field.shape = .struct typeId ∧
          Yields (nestedType nested o.row key) before typeId after) ∨
        (∀ key, marker ≠ .struct key) ∧ ∀ typeId, field.shape ≠ .struct typeId) := by
  cases marker with
  | struct key =>
    simp only [shapeField, yields_bind, yields_pure] at run
    obtain ⟨typeId, _, built, rfl, rfl⟩ := run
    exact ⟨rfl, by simp [Field.Covers], .inl ⟨key, typeId, rfl, rfl, built⟩⟩
  | payload =>
    obtain ⟨rfl, -⟩ := yields_pure.mp run
    simp [Field.Covers]
  | ldpc codeBits messageBits =>
    simp only [shapeField, yields_bind, yields_pure] at run
    obtain ⟨_, _, checked, rfl, -⟩ := run
    obtain ⟨-, covers⟩ := checkParity_yields checked
    refine ⟨rfl, ?_, by simp⟩
    rintro code ⟨rfl⟩
    exact covers
  | enum key =>
    simp only [shapeField, yields_ite, yields_bind, yields_failAt, yields_pure, false_and,
      exists_false, and_false, false_or] at run
    obtain ⟨-, _, _, -, rfl, -⟩ := run
    simp [Field.Covers]
  | string =>
    simp only [shapeField, yields_ite, yields_bind, yields_failAt, false_and, exists_false,
      and_false, false_or] at run
    obtain ⟨-, run⟩ := run
    split at run
    · obtain ⟨rfl, -⟩ := yields_pure.mp run
      simp [Field.Covers]
    · simp only [yields_bind, yields_pure] at run
      obtain ⟨_, _, -, rfl, -⟩ := run
      simp [Field.Covers]
    · simp only [yields_ite, yields_pure, yields_failAt, and_false, or_false] at run
      obtain ⟨-, rfl, -⟩ := run
      simp [Field.Covers]
  | fixed value =>
    simp only [shapeField, yields_bind, yields_pure] at run
    obtain ⟨_, _, typed, _, _, -, rfl, -⟩ := run
    exact ⟨rfl, fun code shape => absurd shape (typedShape_ne_parity typed code),
      .inr ⟨by simp, typedShape_ne_struct typed⟩⟩
  | none | template =>
    simp only [shapeField, yields_bind, yields_pure] at run
    obtain ⟨_, _, typed, rfl, -⟩ := run
    exact ⟨rfl, fun code shape => absurd shape (typedShape_ne_parity typed code),
      .inr ⟨by simp, typedShape_ne_struct typed⟩⟩

theorem buildField_yields {document : Document} {nested : String → Build (Option String)}
    {row : RowRef} {siblings : List Field} {cell : TypeCell} {id : String} {marker : Marker}
    {bitsBefore : Nat} {field : Field} {before after : Context}
    (run : Yields (buildField document nested row siblings cell id marker bitsBefore)
      before field after) :
    field.id = id ∧ field.Covers bitsBefore ∧
      ((∃ key typeId, marker = .struct key ∧ field.shape = .struct typeId ∧
          Yields (nestedType nested row key) before typeId after) ∨
        (∀ key, marker ≠ .struct key) ∧ ∀ typeId, field.shape ≠ .struct typeId) := by
  simp only [buildField, yields_ite, yields_bind, yields_failAt, yields_pure, false_and,
    exists_false, and_false, false_or] at run
  obtain ⟨-, _, _, resolved, _, _, shaped, -, rfl, rfl⟩ := run
  obtain ⟨rfl, -⟩ := resolveRepetition_yields resolved
  exact shapeField_yields shaped

theorem shapeField_evolves (document : Document) {nested : String → Build (Option String)}
    (o : Outline) (kind : TypeKind) (marker : Marker) (bitsBefore : Nat)
    (inner : ∀ key, Evolves (nested key)) :
    Evolves (shapeField document nested o kind marker bitsBefore) := by
  cases marker with
  | struct key =>
    exact (nestedType_evolves o.row key inner).bind fun _ => (still_pure _).evolves
  | enum key =>
    simp only [shapeField, failAt_bind, evolves_ite]
    constructor
    · exact fun _ => (still_failAt _ _).evolves
    · exact fun _ => (resolveEnum_evolves document key).bind fun _ => (still_pure _).evolves
  | payload | ldpc | string | fixed | none | template =>
    exact (shapeField_still document nested o kind bitsBefore (by simp) (by simp)).evolves

theorem buildField_evolves (document : Document) {nested : String → Build (Option String)}
    (row : RowRef) (siblings : List Field) (cell : TypeCell) (id : String) (marker : Marker)
    (bitsBefore : Nat) (inner : ∀ key, Evolves (nested key)) :
    Evolves (buildField document nested row siblings cell id marker bitsBefore) := by
  simp only [buildField, failAt_bind, evolves_ite]
  constructor
  · exact fun _ => (still_failAt _ _).evolves
  · intro _
    apply (resolveRepetition_still _ _ _ _).evolves.bind
    intro repetition
    apply (shapeField_evolves _ _ _ _ _ inner).bind
    intro field
    apply Still.evolves
    simp

structure Draft.Made (draft : Draft) : Prop where
  kind : ∀ kind, draft.kind = some kind → Text.IsSnake kind
  sizeBits : draft.sizeBits < Size.bound
  fields : ∀ field ∈ draft.fields, field.Measured
  fieldIds : ∀ field ∈ draft.fields, Text.IsSimple field.id
  sinceParity : draft.bitsSinceParity = declaredSinceParity draft.fields
  parities : ParitiesCover draft.fields

theorem Draft.made_empty : Draft.Made {} :=
  ⟨by simp, by decide, by simp, by simp, rfl, by simp [ParitiesCover]⟩

theorem isSnake_of_descriptorKind? {name kind : String}
    (found : descriptorKind? (Text.snakeCase name) = some kind) : Text.IsSnake kind := by
  obtain ⟨dropped, -⟩ := Option.filter_eq_some_iff.mp found
  have starts : "_descriptor".toList = '_' :: "descriptor".toList := by decide
  exact (Text.isSnake_snakeCase name).dropEnding starts dropped

theorem isSnake_firstKind (name : Option String) (label : String) :
    Text.IsSnake (firstKind name (Text.snakeCase label)) := by
  unfold firstKind
  split
  · next kind found => exact isSnake_of_descriptorKind? found
  · exact Text.isSnake_snakeCase _
  · exact Text.isSnake_snakeCase _

theorem isSimple_numbered {label : String} (snake : Text.IsSnake label) (k : Nat) :
    Text.IsSimple s!"{label}_{Text.decimal k}" := by
  have digit : ∀ c ∈ Nat.toDigits 10 k, c.isAlphanum = true := by
    intro c member
    have digit := Nat.isDigit_of_mem_toDigits (by decide) (by decide) member
    rw [Char.isAlphanum, digit, Bool.or_true]
  constructor
  · intro c member
    rw [numbered_toList, List.mem_append, List.mem_cons] at member
    rcases member with own | mark | number
    · exact snake.isSimple.chars c own
    · exact .inr mark
    · exact .inl (digit c number)
  · rw [numbered_toList, List.getLast?_append_cons]
    intro last
    rw [List.getLast?_cons_of_ne_nil Nat.toDigits_ne_nil] at last
    have mark := digit '_' (List.mem_of_getLast? last)
    simp at mark

theorem isSimple_freeId (siblings : List Field) {label : String} (snake : Text.IsSnake label) :
    Text.IsSimple (freeId siblings label) := by
  rcases freeId_number siblings label with same | ⟨number, -, numbered⟩
  · rw [same]
    exact snake.isSimple
  · rw [numbered]
    exact isSimple_numbered snake number

theorem add_measured {draft extended : Draft} {field : Field} {bits : Nat}
    (covers : field.Covers bits) (added : draft.add field = .ok extended) : field.Measured where
  bits notParity := by
    simp only [Draft.add, notParity, Bool.false_eq_true, if_false, bind_eq_ok,
      Size.mul_eq_ok] at added
    obtain ⟨_, ⟨-, small⟩, -⟩ := added
    cases repetition : field.repetition <;>
      simpa [repetition, Repetition.constantCount] using small
  parity code shape := by
    have aligned := (covers code shape).1
    simp only [LdpcCode.isByteAligned, Bool.and_eq_true, decide_eq_true_eq] at aligned
    omega

theorem add_bounds {draft extended : Draft} {field : Field}
    (added : draft.add field = .ok extended) (small : draft.sizeBits < Size.bound) :
    extended.sizeBits < Size.bound ∧ extended.kind = draft.kind ∧
      extended.bitsSinceParity = if field.shape.isParity then 0
        else draft.bitsSinceParity + field.width * field.repetition.constantCount := by
  simp only [Draft.add] at added
  by_cases parity : field.shape.isParity = true <;>
    by_cases outside : (field.shape == .payload || field.shape.isStruct) = true <;>
    simp only [parity, outside, if_true, if_false, bind_eq_ok, pure_eq_ok, Size.add_eq_ok,
      Size.mul_eq_ok, Bool.false_eq_true] at added ⊢
  · obtain ⟨_, rfl, _, rfl, rfl⟩ := added
    exact ⟨small, rfl, rfl⟩
  · obtain ⟨_, rfl, _, -, _, ⟨rfl, fits⟩, rfl⟩ := added
    exact ⟨fits, rfl, rfl⟩
  · obtain ⟨_, ⟨rfl, -⟩, _, ⟨rfl, -⟩, _, rfl, rfl⟩ := added
    exact ⟨small, rfl, by cases field.repetition <;> rfl⟩
  · obtain ⟨_, ⟨rfl, -⟩, _, ⟨rfl, -⟩, _, -, _, ⟨rfl, fits⟩, rfl⟩ := added
    exact ⟨fits, rfl, by cases field.repetition <;> rfl⟩

theorem Draft.Made.add {draft extended : Draft} {field : Field} (made : draft.Made)
    (simple : Text.IsSimple field.id) (covers : field.Covers draft.bitsSinceParity)
    (added : draft.add field = .ok extended) : extended.Made := by
  obtain ⟨small, sameKind, sinceParity⟩ := add_bounds added made.sizeBits
  obtain ⟨fields, -, -⟩ := add_eq_ok added
  constructor
  · exact sameKind ▸ made.kind
  · exact small
  · rw [fields]
    exact forall_concat made.fields (add_measured covers added)
  · rw [fields]
    exact forall_concat made.fieldIds simple
  · rw [sinceParity, fields, declaredSinceParity_concat, made.sinceParity]
  · rw [fields]
    exact made.parities.concat (made.sinceParity ▸ covers)

/-- How the rows of a table end. The descriptor of a template is registered by the last one read. -/
inductive RowsEnd (before : Context) : Except Stop Rows × Context → Prop
  | stopped {after : Context} (stop : Stop) (changes : Changes before after) :
      RowsEnd before (.error stop, after)
  | fields {draft : Draft} {after : Context} (changes : Changes before after) (made : draft.Made) :
      RowsEnd before (.ok (.fields draft), after)
  | templated {middle : Context} {t : TemplatedStruct} (changes : Changes before middle)
      (lacks : middle.Lacks t.registration)
      (template : ∃ anchor, (anchor, t.templateId) ∈ middle.templates) (made : t.Made) :
      RowsEnd before (.ok .templated, middle.addTemplated t)

theorem RowsEnd.after {before middle : Context} {outcome : Except Stop Rows × Context}
    (first : Changes before middle) (ended : RowsEnd middle outcome) : RowsEnd before outcome := by
  cases ended with
  | stopped stop changes => exact .stopped stop (first.trans changes)
  | fields changes made => exact .fields (first.trans changes) made
  | templated changes lacks template made =>
    exact .templated (first.trans changes) lacks template made

/-- A kind that is registered is new, so its entry becomes the last one. -/
theorem registerDescriptor_run (key kind : String) (code : Nat) (before : Context) :
    (∃ stop, (registerDescriptor key kind code).run before = (.error stop, before)) ∨
    before.Lacks (kind, code) ∧
      (registerDescriptor key kind code).run before = (.ok (), { before with model :=
        { before.model with
          descriptors := ⟨before.model.descriptors.entries ++ [(kind, code)]⟩ } }) := by
  unfold registerDescriptor
  rw [run_get_bind]
  split
  · exact .inl ⟨_, rfl⟩
  · next unknown =>
    refine .inr ⟨unknown, ?_⟩
    have appended : before.model.descriptors.insert kind code =
        ⟨before.model.descriptors.entries ++ [(kind, code)]⟩ := by
      simp [DescriptorTable.insert, unknown]
    rw [← appended]
    rfl

theorem isSnake_descriptor (name : String) :
    Text.IsSnake ((descriptorKind? (Text.snakeCase name)).getD (Text.snakeCase name)) := by
  cases found : descriptorKind? (Text.snakeCase name) with
  | none => exact Text.isSnake_snakeCase name
  | some kind => exact isSnake_of_descriptorKind? found

inductive TemplatedEnd (before : Context) : Except Stop Unit × Context → Prop
  | stopped (stop : Stop) : TemplatedEnd before (.error stop, before)
  | added {t : TemplatedStruct} (lacks : before.Lacks t.registration)
      (template : ∃ anchor, (anchor, t.templateId) ∈ before.templates) (made : t.Made) :
      TemplatedEnd before (.ok (), before.addTemplated t)

theorem buildTemplated_end (row : RowRef) (anchor typeCell name : String) (before : Context) :
    TemplatedEnd before
      ((buildTemplated row anchor typeCell (Text.snakeCase name)).run before) := by
  unfold buildTemplated
  rw [run_get_bind]
  split
  · exact .stopped _
  · next templateId found =>
    apply (still_readableAt _ _ _).outcome_bind
    · exact .stopped
    · intro code _
      by_cases large : 0xffff < code
      · simp only [large, if_true, failAt_bind]
        exact .stopped _
      · simp only [large, if_false]
        have snake := isSnake_descriptor name
        generalize (descriptorKind? (Text.snakeCase name)).getD (Text.snakeCase name) = kind
          at snake
        rw [run_bind]
        rcases registerDescriptor_run row.key kind code before with ⟨stop, run⟩ | ⟨lacks, run⟩
        · rw [run]
          exact .stopped stop
        · rw [run]
          have made : TemplatedStruct.Made ⟨kind, code, templateId⟩ := ⟨snake, Nat.not_lt.mp large⟩
          exact .added lacks ⟨anchor, mem_of_lookup found⟩ made

theorem Draft.Made.withKind {draft : Draft} (made : draft.Made) {kind : Option String}
    (snake : ∀ name, kind = some name → Text.IsSnake name) : Draft.Made { draft with kind } :=
  { made with kind := snake }

theorem buildRows_end (document : Document) {nested : String → Build (Option String)} (key : String)
    (name : Option String) (index : Nat) (rows : List FieldRow) {draft : Draft}
    (inner : ∀ key, Evolves (nested key)) (made : draft.Made) (before : Context) :
    RowsEnd before ((buildRows document nested key name index rows draft).run before) := by
  induction rows generalizing index draft before with
  | nil => exact .fields .refl made
  | cons raw rest ih =>
    unfold buildRows
    apply (still_readableAt _ _ _).outcome_bind
    · exact fun stop => .stopped stop .refl
    intro marker _
    apply (still_readableAt _ _ _).outcome_bind
    · exact fun stop => .stopped stop .refl
    intro label _
    split
    · next anchor _ =>
      have ended := buildTemplated_end ⟨key, index⟩ anchor raw.type label before
      rw [run_bind]
      generalize (buildTemplated ⟨key, index⟩ anchor raw.type (Text.snakeCase label)).run before =
        outcome at ended
      cases ended with
      | stopped stop => exact .stopped stop .refl
      | added lacks template made => exact .templated .refl lacks template made
    · apply (still_readableAt _ _ _).outcome_bind
      · exact fun stop => .stopped stop .refl
      intro cell _
      apply (still_checked _).outcome_bind
      · exact fun stop => .stopped stop .refl
      intro id numbered
      have numbered := eq_freeId (yields_checked.mp numbered).1
      have evolves := buildField_evolves document ⟨key, index⟩ draft.fields cell id marker
        draft.bitsSinceParity inner
      apply outcome_bind
      · intro stop after run
        exact .stopped stop (evolves.of_run run)
      intro field middle run
      apply (still_checked _).outcome_bind
      · exact fun stop => .stopped stop (evolves.of_run run)
      intro extended added
      have added := (yields_checked.mp added).1
      have snake : ∀ kind, (if index == 0 then some (firstKind name (Text.snakeCase label))
          else draft.kind) = some kind → Text.IsSnake kind := by
        intro kind same
        split at same
        · exact Option.some.inj same ▸ isSnake_firstKind name label
        · exact made.kind kind same
      obtain ⟨named, covers, -⟩ := buildField_yields run
      have simple : Text.IsSimple field.id := by
        rw [named, numbered]
        exact isSimple_freeId _ (Text.isSnake_snakeCase label)
      have extendedMade := (made.add simple covers added).withKind snake
      exact (ih (index + 1) extendedMade middle).after (evolves.of_run run)

inductive DraftEnd (key : String) (draft : Draft) (before : Context) :
    Except Stop Built × Context → Prop
  | stopped (stop : Stop) : DraftEnd key draft before (.error stop, before)
  | empty : DraftEnd key draft before (.ok .empty, before)
  | struct {s : Struct} (key_eq : s.key = key) (fields_eq : s.fields = draft.fields)
      (lacks : ∀ entry ∈ s.registration, before.Lacks entry) (made : s.Made) :
      DraftEnd key draft before (.ok (.struct s.id), before.addStruct s)

theorem addStruct_unregistered {s : Struct} (before : Context)
    (unregistered : s.descriptor = none) :
    before.addStruct s = { before with model := { before.model with
      structs := before.model.structs ++ [s] } } := by
  simp [Context.addStruct, Struct.registration, unregistered]

theorem finishStruct_end (window : Nat) (key : String) (name : Option String) (role : Role)
    {draft : Draft} (made : draft.Made) (before : Context) :
    DraftEnd key draft before ((finishStruct window key name role draft).run before) := by
  unfold finishStruct
  simp only [fail_bind]
  split
  · exact .empty
  split
  · exact .stopped _
  next valid =>
  apply (checkWindow_still _ _ _ _).outcome_bind
  · exact .stopped
  intro _ _
  have snake : Text.IsSnake (draft.kind.getD (Text.snakeCase key)) := by
    cases known : draft.kind with
    | none => exact Text.isSnake_snakeCase key
    | some kind => exact made.kind kind known
  simp only [Bool.not_eq_true', Bool.not_eq_false] at valid
  generalize draft.kind.getD (Text.snakeCase key) = kind at snake valid
  have made : Struct.Made ⟨key, typeName name kind, kind, role, draft.fields, draft.sizeBits,
      draft.descriptor⟩ := ⟨valid, Text.isSimple_camelCase _, snake, made.sizeBits, made.fields,
        made.fieldIds, made.parities⟩
  cases registered : draft.descriptor with
  | none =>
    rw [registered] at made
    have ended : DraftEnd key draft before _ :=
      .struct rfl rfl (by simp [Struct.registration]) made
    rw [addStruct_unregistered before rfl] at ended
    exact ended
  | some code =>
    rw [registered] at made
    rw [run_bind]
    rcases registerDescriptor_run key kind code before with ⟨stop, run⟩ | ⟨lacks, run⟩
    · rw [run]
      exact .stopped stop
    · rw [run]
      apply DraftEnd.struct rfl rfl _ made
      rintro entry ⟨⟩
      exact lacks

def Context.push (context : Context) (key : String) : Context :=
  { context with inProgress := context.inProgress ++ [key] }

def Context.pop (context : Context) : Context :=
  { context with inProgress := context.inProgress.dropLast }

theorem run_whileInProgress (key : String) (step : Build α) (before : Context) :
    (whileInProgress key step).run before =
      ((step.run (before.push key)).1, (step.run (before.push key)).2.pop) := rfl

/-- What happens while the rows of a table are read is possible outside of it. -/
theorem Changes.pop {before after : Context} {key : String}
    (changes : Changes (before.push key) after) : Changes before after.pop := by
  have popped : after.pop = { after with inProgress := before.inProgress } := by
    rw [Context.pop, changes.inProgress, Context.push, List.dropLast_concat]
  rw [popped]
  exact changes.shrink (List.subset_append_left before.inProgress [key])

theorem Changes.awaits_pop {before after : Context} {key : String}
    (changes : Changes (before.push key) after) (awaits : before.Awaits key) :
    after.pop.Awaits key where
  unbuilt := by
    have busy : key ∈ (before.push key).inProgress :=
      List.mem_append_right _ (List.mem_singleton_self key)
    exact (changes.lookup_of_inProgress busy).trans awaits.unbuilt
  idle := by
    rw [changes.pop.inProgress]
    exact awaits.idle

/-- How building a table ends. Its outcome is recorded, now or earlier, or it has none. -/
inductive TableEnd (key : String) (before : Context) : Except Stop Built × Context → Prop
  | stopped {after : Context} (stop : Stop) (changes : Changes before after) :
      TableEnd key before (.error stop, after)
  | built {after : Context} {built : Built} (changes : Changes before after)
      (recorded : after.built.lookup key = some built) : TableEnd key before (.ok built, after)

theorem TableEnd.record {before after : Context} {key : String} {built : Built}
    (awaits : before.Awaits key)
    (change : Change before (after.record key built)) (same : after.built = before.built)  :
    TableEnd key before (.ok built, after.record key built) := by
  apply TableEnd.built (.single change)
  rw [lookup_record, same, awaits.unbuilt]
  simp

theorem TableEnd.after {before middle : Context} {key : String}
    {outcome : Except Stop Built × Context} (first : Changes before middle)
    (ended : TableEnd key middle outcome) : TableEnd key before outcome := by
  cases ended with
  | stopped stop changes => exact .stopped stop (first.trans changes)
  | built changes recorded => exact .built (first.trans changes) recorded

/-- The rows of a table are read, and their outcome is recorded. -/
theorem tableRows_end (document : Document) (window : Nat)
    {nested : String → Build (Option String)} (inner : ∀ key, Evolves (nested key)) {key : String}
    (name : Option String) (role : Role) {before : Context} (awaits : before.Awaits key) :
    TableEnd key before (ExceptT.run (do
      let built ← whileInProgress key do
        match ← buildRows document nested key name 0 (document.fieldRows key) {} with
        | .templated => return .templated
        | .fields draft => finishStruct window key name role draft
      modify fun context => { context with built := context.built ++ [(key, built)] }
      return built) before) := by
  rw [run_bind, run_whileInProgress, run_bind]
  have rows := buildRows_end document key name 0 (document.fieldRows key) inner Draft.made_empty
    (before.push key)
  generalize (buildRows document nested key name 0 (document.fieldRows key) {}).run
    (before.push key) = outcome at rows
  cases rows with
  | stopped stop changes => exact .stopped stop changes.pop
  | templated changes lacks template made =>
    have awaits := changes.awaits_pop awaits
    exact (TableEnd.record awaits (.templated awaits lacks template made) rfl).after changes.pop
  | @fields draft middle changes made =>
    have awaits := changes.awaits_pop awaits
    have finished := finishStruct_end window key name role made middle
    dsimp only
    generalize (finishStruct window key name role draft).run middle = outcome at finished
    cases finished with
    | stopped stop => exact .stopped stop changes.pop
    | empty => exact (TableEnd.record awaits (.empty awaits) rfl).after changes.pop
    | struct key_eq _ lacks made =>
      subst key_eq
      exact (TableEnd.record awaits (.struct awaits lacks made) rfl).after changes.pop

theorem TableEnd.evolves {step : Build Built} {key : String}
    (ends : ∀ before, TableEnd key before (step.run before)) : Evolves step := by
  intro before
  have ended := ends before
  generalize step.run before = outcome at ended
  cases ended with
  | stopped _ changes => exact changes
  | built changes _ => exact changes

theorem structId_evolves {step : Build Built} (evolves : Evolves step) :
    Evolves (do
      match ← step with
      | .struct id => return some id
      | .templated | .empty => return none) := by
  apply evolves.bind
  intro built
  cases built <;> exact (still_pure _).evolves

/-- By induction on the depth, for tables at any level of nesting. -/
theorem buildTable_end (document : Document) (window depth : Nat) (key : String)
    (name : Option String) (role : Role) (before : Context) :
    TableEnd key before ((buildTable document window depth key name role).run before) := by
  induction depth generalizing key name role before with
  | zero => exact .stopped _ .refl
  | succ depth ih =>
    unfold buildTable
    rw [run_get_bind]
    split
    · next built known => exact .built .refl known
    · next unknown =>
      rw [run_get_bind]
      simp only [fail_bind]
      by_cases busy : before.inProgress.contains key = true
      · rw [if_pos busy]
        exact .stopped _ .refl
      · rw [if_neg busy]
        apply tableRows_end
        · exact fun key => structId_evolves (TableEnd.evolves (ih key (some key) .nested))
        · exact ⟨unknown, by simpa using busy⟩

end PacketSpec.Builder
