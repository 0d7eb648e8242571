import PacketSpec.Proofs.Builder.Retry
import PacketSpec.Proofs.Reached

/-! Where the structures of a model come from. Every field was read from the row at its place, after
the fields before it, and a row that nests a table was read when the structure of that table was
known. This holds after every step of building, also where it fails. -/
namespace PacketSpec.Builder

open Cell (TypeCell TypeKind Marker)

variable {document : Document} {structs : List Struct}

/-- The field was read from the row, after the fields `siblings` and when the structures were
known. -/
inductive Gives (document : Document) (structs : List Struct) (siblings : List Field)
    (raw : FieldRow) (field : Field) : Prop
  | intro {marker : Marker} {name : String} {cell : TypeCell}
      {nested : String → Build (Option String)} {row : RowRef} {bitsBefore : Nat}
      {before after : Context} (marked : Cell.readMarker raw.value = .ok marker)
      (named : Cell.readName raw.name = .ok name) (typed : Cell.readType raw.type = .ok cell)
      (notTemplate : ∀ anchor, marker ≠ .template anchor)
      (run : Yields (buildField document nested row siblings cell
        (freeId siblings (Text.snakeCase name)) marker bitsBefore) before field after)
      (nests : ∀ key, marker = .struct key → ∃ s ∈ structs, s.key = key) :
      Gives document structs siblings raw field

theorem Gives.mono {larger : List Struct} {siblings : List Field} {raw : FieldRow} {field : Field}
    (gives : Gives document structs siblings raw field) (more : structs ⊆ larger) :
    Gives document larger siblings raw field := by
  obtain ⟨marked, named, typed, notTemplate, run, nests⟩ := gives
  refine ⟨marked, named, typed, notTemplate, run, fun key same => ?_⟩
  obtain ⟨s, member, sameKey⟩ := nests key same
  exact ⟨s, more member, sameKey⟩

structure Reads (document : Document) (structs : List Struct) (rows : List FieldRow)
    (fields : List Field) : Prop where
  length : fields.length = rows.length
  each : ∀ index raw field, rows[index]? = some raw → fields[index]? = some field →
    Gives document structs (fields.take index) raw field

theorem reads_nil : Reads document structs [] [] := ⟨rfl, by simp⟩

theorem Reads.mono {larger : List Struct} {rows : List FieldRow} {fields : List Field}
    (reads : Reads document structs rows fields) (more : structs ⊆ larger) :
    Reads document larger rows fields :=
  ⟨reads.length, fun index raw field row place => (reads.each index raw field row place).mono more⟩

theorem Reads.exists_field {rows : List FieldRow} {fields : List Field} {index : Nat}
    {raw : FieldRow} (reads : Reads document structs rows fields) (row : rows[index]? = some raw) :
    ∃ field, fields[index]? = some field ∧
      Gives document structs (fields.take index) raw field := by
  have inside : index < fields.length := by
    rw [reads.length]
    exact (List.getElem?_eq_some_iff.mp row).1
  have place := List.getElem?_eq_getElem inside
  exact ⟨fields[index], place, reads.each index raw _ row place⟩

theorem Reads.concat {rows : List FieldRow} {fields : List Field} {raw : FieldRow} {field : Field}
    (reads : Reads document structs rows fields) (gives : Gives document structs fields raw field) :
    Reads document structs (rows ++ [raw]) (fields ++ [field]) where
  length := by rw [List.length_append, List.length_append, reads.length]; rfl
  each index other found row place := by
    by_cases earlier : index < fields.length
    · rw [List.getElem?_append_left earlier] at place
      rw [List.getElem?_append_left (reads.length ▸ earlier)] at row
      rw [List.take_append_of_le_length (Nat.le_of_lt earlier)]
      exact reads.each index other found row place
    · have last : index = fields.length := by
        have inside := (List.getElem?_eq_some_iff.mp place).1
        rw [List.length_append, List.length_singleton] at inside
        omega
      subst last
      rw [List.getElem?_concat_length] at place
      rw [reads.length, List.getElem?_concat_length] at row
      rw [List.take_left]
      cases place
      cases row
      exact gives

/-- Every structure was read from its table, after those before it in the model. -/
def Traceable (document : Document) (structs : List Struct) : Prop :=
  ∀ front s back, structs = front ++ s :: back →
    Reads document front (document.fieldRows s.key) s.fields

theorem traceable_nil : Traceable document [] := by
  intro front s back split
  simp at split

theorem Traceable.concat {s : Struct} (traceable : Traceable document structs)
    (reads : Reads document structs (document.fieldRows s.key) s.fields) :
    Traceable document (structs ++ [s]) := by
  intro front other back split
  rcases List.eq_nil_or_concat back with rfl | ⟨between, last, rfl⟩
  · obtain ⟨rfl, same⟩ := List.append_inj' split rfl
    cases same
    exact reads
  · rw [List.concat_eq_append, ← List.cons_append, ← List.append_assoc] at split
    exact traceable front other between (List.append_inj' split rfl).1

structure Context.Traced (document : Document) (context : Context) : Prop where
  consistent : context.Consistent
  structs : Traceable document context.model.structs

theorem traced_new (document : Document) (source : String) :
    (Context.new source).Traced document :=
  ⟨consistent_new source, traceable_nil⟩

theorem Context.Traced.push {context : Context} (traced : context.Traced document) (key : String) :
    (context.push key).Traced document :=
  ⟨{ traced.consistent with }, traced.structs⟩

variable {α β : Type}

/-- Whatever its outcome, the step adds only structures that were read from their tables. -/
def Traces (document : Document) (step : Build α) : Prop :=
  ∀ ⦃before⦄, before.Traced document → Traceable document (step.run before).2.model.structs

theorem Traces.of_run {step : Build α} (traces : Traces document step) (evolves : Evolves step)
    {before after : Context} {result : Except Stop α} (traced : before.Traced document)
    (run : step.run before = (result, after)) : after.Traced document := by
  have structs := traces traced
  rw [run] at structs
  exact ⟨(evolves.of_run run).consistent traced.consistent, structs⟩

theorem Still.traces {step : Build α} (still : Still step) : Traces document step := by
  intro before traced
  rw [still.unchanged]
  exact traced.structs

theorem Traces.bind {step : Build α} {next : α → Build β} (first : Traces document step)
    (evolves : Evolves step) (second : ∀ a, Traces document (next a)) :
    Traces document (step >>= next) := by
  intro before traced
  apply outcome_bind (motive := fun outcome => Traceable document outcome.2.model.structs)
  · intro stop after run
    exact (first.of_run evolves traced run).structs
  · intro a middle run
    exact second a (first.of_run evolves traced run)

theorem traces_ite {p : Prop} [Decidable p] {first second : Build α}
    (yes : Traces document first) (no : Traces document second) :
    Traces document (if p then first else second) := by
  split
  · exact yes
  · exact no

theorem resolveEnum_traces (key : String) : Traces document (resolveEnum document key) := by
  intro before traced
  have ended := resolveEnum_end document key before
  generalize (resolveEnum document key).run before = outcome at ended
  cases ended <;> exact traced.structs

structure NestedTraces (document : Document) (nested : String → Build (Option String)) : Prop where
  evolves : ∀ key, Evolves (nested key)
  traces : ∀ key, Traces document (nested key)
  known : ∀ ⦃key before typeId after⦄, before.Consistent →
    Yields (nested key) before (some typeId) after → ∃ s ∈ after.model.structs, s.key = key

variable {nested : String → Build (Option String)}

theorem nestedType_traces (inner : NestedTraces document nested) (row : RowRef) (key : String) :
    Traces document (nestedType nested row key) := by
  apply (inner.traces key).bind (inner.evolves key)
  intro result
  cases result with
  | none => exact (still_failAt _ _).traces
  | some typeId =>
    intro before traced
    rw [run_get_bind]
    simp only [failAt_bind]
    split <;> exact traced.structs

theorem shapeField_traces (inner : NestedTraces document nested) (o : Outline) (kind : TypeKind)
    (marker : Marker) (bitsBefore : Nat) :
    Traces document (shapeField document nested o kind marker bitsBefore) := by
  cases marker with
  | struct key =>
    exact (nestedType_traces inner o.row key).bind (nestedType_evolves o.row key inner.evolves)
      fun _ => (still_pure _).traces
  | enum key =>
    simp only [shapeField, failAt_bind]
    apply traces_ite (still_failAt _ _).traces
    exact (resolveEnum_traces key).bind (resolveEnum_evolves document key)
      fun _ => (still_pure _).traces
  | payload | ldpc | string | fixed | none | template =>
    exact (shapeField_still document nested o kind bitsBefore (by simp) (by simp)).traces

theorem buildField_traces (inner : NestedTraces document nested) (row : RowRef)
    (siblings : List Field) (cell : TypeCell) (id : String) (marker : Marker) (bitsBefore : Nat) :
    Traces document (buildField document nested row siblings cell id marker bitsBefore) := by
  have resolved := resolveRepetition_still row siblings id cell.multiplier
  simp only [buildField, failAt_bind]
  apply traces_ite (still_failAt _ _).traces
  apply resolved.traces.bind resolved.evolves
  intro repetition
  apply (shapeField_traces inner _ _ _ _).bind (shapeField_evolves _ _ _ _ _ inner.evolves)
  intro field
  apply Still.traces
  simp

/-- The structure that a row nests is known once the row is read. -/
theorem buildField_nests (inner : NestedTraces document nested) {row : RowRef}
    {siblings : List Field} {cell : TypeCell} {id : String} {marker : Marker} {bitsBefore : Nat}
    {field : Field} {before after : Context} (consistent : before.Consistent)
    (run : Yields (buildField document nested row siblings cell id marker bitsBefore)
      before field after) :
    ∀ key, marker = .struct key → ∃ s ∈ after.model.structs, s.key = key := by
  rintro key rfl
  rcases (buildField_yields run).2.2 with ⟨other, typeId, same, -, nestedRun⟩ | ⟨notStruct, -⟩
  · cases same
    obtain ⟨result, middle, built, ended⟩ := yields_bind.mp nestedRun
    cases result with
    | none => exact (yields_failAt ended).elim
    | some found =>
      obtain ⟨s, member, sameKey⟩ := inner.known consistent built
      simp only [yields_bind, yields_get, yields_ite, yields_failAt, false_and, exists_false,
        and_false, false_or, yields_modifyModel, yields_pure] at ended
      obtain ⟨_, _, ⟨rfl, rfl⟩, -, _, _, rfl, -, rfl⟩ := ended
      exact ⟨s, member, sameKey⟩
  · exact absurd rfl (notStruct key)

theorem buildRows_traces (inner : NestedTraces document nested) (key : String)
    (name : Option String) (index : Nat) (rows : List FieldRow) (draft : Draft) :
    Traces document (buildRows document nested key name index rows draft) := by
  induction rows generalizing index draft with
  | nil => exact (still_pure (Rows.fields draft)).traces
  | cons raw rest ih =>
    unfold buildRows
    apply (still_readableAt _ _ _).traces.bind (still_readableAt _ _ _).evolves
    intro marker
    apply (still_readableAt _ _ _).traces.bind (still_readableAt _ _ _).evolves
    intro label
    split
    · next anchor =>
      intro before traced
      have ended := buildTemplated_end ⟨key, index⟩ anchor raw.type label before
      rw [run_bind]
      generalize (buildTemplated ⟨key, index⟩ anchor raw.type (Text.snakeCase label)).run before =
        outcome at ended
      cases ended <;> exact traced.structs
    · apply (still_readableAt _ _ _).traces.bind (still_readableAt _ _ _).evolves
      intro cell
      apply (still_checked _).traces.bind (still_checked _).evolves
      intro id
      apply (buildField_traces inner _ _ _ _ _ _).bind
        (buildField_evolves _ _ _ _ _ _ _ inner.evolves)
      intro field
      apply (still_checked _).traces.bind (still_checked _).evolves
      intro extended
      exact ih (index + 1) _

/-- By induction on the rows: the fields of the draft are those of the rows read so far. -/
theorem buildRows_reads (inner : NestedTraces document nested) {key : String}
    {name : Option String} {done rest : List FieldRow} {index : Nat} {draft finished : Draft}
    {before after : Context} (traced : before.Traced document)
    (reads : Reads document before.model.structs done draft.fields)
    (run : Yields (buildRows document nested key name index rest draft) before (.fields finished)
      after) :
    Reads document after.model.structs (done ++ rest) finished.fields := by
  induction rest generalizing done index draft before with
  | nil =>
    obtain ⟨same, rfl⟩ := yields_pure.mp run
    cases same
    rw [List.append_nil]
    exact reads
  | cons raw rest ih =>
    simp only [buildRows, yields_bind, yields_readableAt] at run
    obtain ⟨marker, _, ⟨marked, rfl⟩, label, before, ⟨named, rfl⟩, run⟩ := run
    split at run
    · simp only [yields_bind, yields_pure] at run
      obtain ⟨_, _, -, same, -⟩ := run
      cases same
    · next notTemplate =>
      simp only [yields_bind, yields_readableAt, yields_checked] at run
      obtain ⟨cell, _, ⟨typed, rfl⟩, id, _, ⟨numbered, rfl⟩, field, _, built, extended, middle,
        ⟨added, rfl⟩, run⟩ := run
      obtain rfl := eq_freeId numbered
      have evolves := buildField_evolves document ⟨key, index⟩ draft.fields cell
        (freeId draft.fields (Text.snakeCase label)) marker draft.bitsSinceParity inner.evolves
      have grows := (evolves.of_run built).continues.structs.subset
      have gives : Gives document middle.model.structs draft.fields raw field :=
        ⟨marked, named, typed, notTemplate, built, buildField_nests inner traced.consistent built⟩
      have traced := (buildField_traces inner _ _ _ _ _ _).of_run evolves traced built
      have longer := (reads.mono grows).concat gives
      rw [← (add_eq_ok added).1] at longer
      have whole := ih traced (by exact longer) run
      rwa [List.append_assoc, List.singleton_append] at whole

theorem tableRows_traces (inner : NestedTraces document nested) (window : Nat) (key : String)
    (name : Option String) (role : Role) : Traces document (do
      match ← buildRows document nested key name 0 (document.fieldRows key) {} with
      | .templated => return .templated
      | .fields draft => finishStruct window key name role draft) := by
  intro before traced
  have rows := buildRows_traces inner key name 0 (document.fieldRows key) {} traced
  apply outcome_bind (motive := fun outcome => Traceable document outcome.2.model.structs)
  · intro stop after run
    rw [run] at rows
    exact rows
  · intro result middle run
    rw [run] at rows
    cases result with
    | templated => exact rows
    | fields draft =>
      have reads := buildRows_reads inner traced reads_nil run
      have ended := buildRows_end document key name 0 (document.fieldRows key) inner.evolves
        Draft.made_empty before
      rw [run] at ended
      cases ended with
      | fields _ made =>
        have finished := finishStruct_end window key name role made middle
        dsimp only
        generalize (finishStruct window key name role draft).run middle = outcome at finished
        cases finished with
        | stopped => exact rows
        | empty => exact rows
        | @struct s key_eq fields_eq =>
          apply rows.concat
          rw [key_eq, fields_eq]
          exact reads

theorem buildTable_traces (document : Document) (window depth : Nat) (key : String)
    (name : Option String) (role : Role) :
    Traces document (buildTable document window depth key name role) := by
  induction depth generalizing key name role with
  | zero => exact (still_fail _).traces
  | succ depth ih =>
    intro before traced
    by_cases awaits : before.Awaits key
    · have inner : NestedTraces document (nestedStruct document window depth) := by
        constructor
        · exact nestedStruct_evolves document window depth
        · intro key
          apply (ih key (some key) .nested).bind
            (TableEnd.evolves (buildTable_end document window depth key (some key) .nested))
          intro built
          cases built <;> exact (still_pure _).traces
        · intro key before typeId after consistent run
          obtain ⟨built, middle, building, run⟩ := yields_bind.mp run
          have ended := buildTable_end document window depth key (some key) .nested before
          rw [building] at ended
          cases ended with
          | built changes recorded =>
            cases built with
            | struct id =>
              cases run
              obtain ⟨s, member, sameKey, -⟩ :=
                ((changes.consistent consistent).built key typeId).mp recorded
              exact ⟨s, member, sameKey⟩
            | templated => cases run
            | empty => cases run
      have rows := tableRows_traces inner window key name role (traced.push key)
      rw [buildTable_run awaits]
      apply outcome_bind (motive := fun outcome => Traceable document outcome.2.model.structs)
      · intro stop after run
        rw [run_whileInProgress] at run
        obtain rfl := (Prod.mk.inj run).2
        exact rows
      · intro built middle run
        rw [Yields, run_whileInProgress] at run
        obtain rfl := (Prod.mk.inj run).2
        exact rows
    · rw [buildTable_unchanged document window depth awaits]
      exact traced.structs

theorem Call.traces (window : Nat) (call : Call) : Traces document (call.run document window) := by
  cases call with
  | enum key =>
    simp only [Call.run, map_eq_pure_bind]
    exact (resolveEnum_traces key).bind (resolveEnum_evolves document key)
      fun _ => (still_pure _).traces
  | struct key name role =>
    apply (buildTable_traces document window _ key name role).bind
      (TableEnd.evolves (buildTable_end document window _ key name role))
    intro built
    cases built <;> exact (still_pure _).traces

theorem traced_afterCalls (window : Nat) {context : Context} (traced : context.Traced document)
    (calls : List Call) : (afterCalls document window context calls).Traced document := by
  induction calls generalizing context with
  | nil => exact traced
  | cons call calls ih =>
    exact ih ⟨(call.evolves context).consistent traced.consistent, call.traces window traced⟩

theorem forM_traces {items : List α} {step : α → Build Unit}
    (each : ∀ item, Traces document (step item)) (evolves : ∀ item, Evolves (step item)) :
    Traces document (items.forM step) := by
  induction items with
  | nil => exact (still_pure ()).traces
  | cons item rest ih => exact (each item).bind (evolves item) fun _ => ih

theorem buildTemplate_traces (document : Document) (window : Nat) (template : TemplateRow) :
    Traces document (buildTemplate document window template) := by
  apply (still_readable _ _).traces.bind (still_readable _ _).evolves
  intro anchor
  apply (Call.traces window (.struct template.id none .template)).bind
    (buildStruct_evolves document window template.id none .template)
  intro result
  cases result with
  | none => exact (still_fail _).traces
  | some id => exact fun _ traced => traced.structs

theorem buildCodes_traces (document : Document) (window count code : Nat) :
    Traces document (buildCodes document window count code) := by
  induction count generalizing code with
  | zero => exact (still_pure ()).traces
  | succ count ih =>
    apply (buildTable_traces document window _ _ _ _).bind (build_evolves document window _ _ _)
    intro built
    cases built with
    | empty => exact (still_pure ()).traces
    | struct | templated => exact ih (code + 1)

theorem buildRange_traces (document : Document) (window : Nat) (range : RangeRow) :
    Traces document (buildRange document window range) := by
  apply (still_readable _ _).traces.bind (still_readable _ _).evolves
  intro codes
  simp only [fail_bind]
  exact traces_ite (still_fail _).traces (buildCodes_traces _ _ _ _)

theorem buildAll_traces (document : Document) (window : Nat) :
    Traces document (buildAll document window) :=
  (forM_traces (buildTemplate_traces document window) (buildTemplate_evolves document window)).bind
    (forM_evolves (buildTemplate_evolves document window)) fun _ =>
      forM_traces (buildRange_traces document window) (buildRange_evolves document window)

/-- Every structure of an accepted document was read from the rows of its table. -/
theorem reads_of_analyze {document : Document} {window : Nat} {source : String} {model : Model}
    (accepted : analyze document window source = .ok model) {s : Struct}
    (member : s ∈ model.structs) :
    Reads document model.structs (document.fieldRows s.key) s.fields := by
  obtain ⟨context, run, rfl, -⟩ := analyze_eq_ok accepted
  have traced := (buildAll_traces document window).of_run (buildAll_evolves document window)
    (traced_new document source) run
  obtain ⟨front, back, split⟩ := List.append_of_mem member
  apply (traced.structs front s back split).mono
  rw [split]
  exact List.subset_append_left _ _

end PacketSpec.Builder
