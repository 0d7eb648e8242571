import Mathlib.Logic.Relation
import PacketSpec.Proofs.Builder.Accounting
import PacketSpec.Proofs.Builder.Nesting
import PacketSpec.Proofs.Builder.Retry

/-! Why building stops. A diagnostic about recursion is given only where the references of tables
form a cycle, and a size or a counter leaves its range only where the rows of a table declare too many
bits or are too many. All other stops are diagnostics about something else. -/
namespace PacketSpec

open Cell (TypeCell TypeKind Marker)

theorem BitWindow.le_of_push_error {σ : Type} {window : BitWindow σ} {symbol : σ} {width : Nat}
    {f : Fault} (failed : window.push symbol width = .error f) :
    Size.bound ≤ window.used + width := by
  by_contra small
  rw [BitWindow.push, Size.add, Size.check_of_lt (Nat.not_le.mp small)] at failed
  simp only [bind, Except.bind] at failed
  split at failed
  · cases failed
  · split at failed <;> cases failed

theorem BitWindow.used_of_push {σ : Type} {window next : BitWindow σ} {symbol : σ} {width : Nat}
    {outcome : Except WindowError (Option (Chunk σ))}
    (pushed : window.push symbol width = .ok (outcome, next)) :
    next.used ≤ window.used + width := by
  obtain ⟨used, added, pushed⟩ := bind_eq_ok.mp pushed
  obtain ⟨rfl, -⟩ := Size.add_eq_ok.mp added
  split at pushed
  · cases pushed
    exact Nat.le_refl _
  · split at pushed
    · cases pushed
      exact Nat.zero_le _
    · cases pushed
      exact Nat.le_refl _

namespace Document

/-- A row of the table nests the other one, before any row with a template. -/
def Refers (document : Document) (key other : String) : Prop :=
  (.struct other : Marker) ∈ Builder.fieldMarkers (document.fieldRows key)

theorem mem_keys_of_refers {document : Document} {key other : String}
    (refers : document.Refers key other) : key ∈ document.structs.map Prod.fst := by
  cases found : document.structs.lookup key with
  | none => simp [Refers, fieldRows, found, Builder.fieldMarkers] at refers
  | some rows => exact List.mem_map.mpr ⟨(key, rows), mem_of_lookup found, rfl⟩

def Oversized (document : Document) : Prop :=
  ∃ key, Size.bound ≤ document.tableBits key ∨ 1 <<< 31 ≤ (document.fieldRows key).length + 1

/-- The tables being built while `key` is asked for: each one was reached from the one before. -/
structure Chain (document : Document) (stack : List String) (key : String) : Prop where
  distinct : stack.Nodup
  tables : stack ⊆ document.structs.map Prod.fst
  leads : ∀ busy ∈ stack, Relation.TransGen document.Refers busy key

theorem chain_nil (document : Document) (key : String) : document.Chain [] key :=
  ⟨List.nodup_nil, List.nil_subset _, by simp⟩

theorem Chain.push {document : Document} {stack : List String} {key other : String}
    (chain : document.Chain stack key) (idle : key ∉ stack) (refers : document.Refers key other) :
    document.Chain (stack ++ [key]) other where
  distinct := nodup_concat chain.distinct idle
  tables := by
    intro busy member
    rcases List.mem_append.mp member with earlier | last
    · exact chain.tables earlier
    · exact List.mem_singleton.mp last ▸ mem_keys_of_refers refers
  leads := by
    intro busy member
    rcases List.mem_append.mp member with earlier | last
    · exact (chain.leads busy earlier).tail refers
    · exact List.mem_singleton.mp last ▸ .single refers

/-- No more tables are being built than the document has. -/
theorem Chain.length_le {document : Document} {stack : List String} {key : String}
    (chain : document.Chain stack key) : stack.length ≤ document.structs.length := by
  have shorter := chain.distinct.length_le_of_subset chain.tables
  rwa [List.length_map] at shorter

end Document

namespace Builder

/-- A diagnostic that is not about recursion, or a fault where sizes are too `large`. -/
inductive Stop.Ordinary (large : Prop) : Stop → Prop
  | diagnostic {d : Diagnostic} (plain : ∀ key, d.cause ≠ .recursiveStruct key) :
      Ordinary large (.diagnostic d)
  | fault {f : Fault} (holds : large) : Ordinary large (.fault f)

theorem Stop.Ordinary.mono {large larger : Prop} {stop : Stop} (ordinary : stop.Ordinary large)
    (implies : large → larger) : stop.Ordinary larger := by
  cases ordinary with
  | diagnostic plain => exact .diagnostic plain
  | fault holds => exact .fault (implies holds)

variable {α β : Type} {large : Prop}

def Stops (large : Prop) (step : Build α) : Prop :=
  ∀ ⦃before stop after⦄, step.run before = (.error stop, after) → stop.Ordinary large

theorem Stops.mono {larger : Prop} {step : Build α} (stops : Stops large step)
    (implies : large → larger) : Stops larger step :=
  fun _ _ _ run => (stops run).mono implies

@[simp] theorem stops_pure (a : α) : Stops large (pure a) := by
  rintro before stop after ⟨⟩

@[simp] theorem stops_fail {cause : Cause} (plain : ∀ key, cause ≠ .recursiveStruct key) :
    Stops large (fail cause : Build α) := by
  rintro before stop after ⟨⟩
  exact .diagnostic plain

@[simp] theorem stops_failAt {row : RowRef} {cause : Cause}
    (plain : ∀ key, cause ≠ .recursiveStruct key) : Stops large (failAt row cause : Build α) := by
  rintro before stop after ⟨⟩
  exact .diagnostic plain

theorem stops_checked {result : Except Fault α} (fails : ∀ f, result = .error f → large) :
    Stops large (checked result) := by
  cases result with
  | ok a => exact stops_pure a
  | error f =>
    rintro before stop after ⟨⟩
    exact .fault (fails f rfl)

@[simp] theorem stops_readable {cause : Cell.Error → Cause} {result : Except Cell.Error α}
    (plain : ∀ e key, cause e ≠ .recursiveStruct key) : Stops large (readable cause result) := by
  cases result with
  | ok a => exact stops_pure a
  | error e => exact stops_fail (plain e)

@[simp] theorem stops_readableAt {row : RowRef} {cause : Cell.Error → Cause}
    {result : Except Cell.Error α} (plain : ∀ e key, cause e ≠ .recursiveStruct key) :
    Stops large (readableAt row cause result) := by
  cases result with
  | ok a => exact stops_pure a
  | error e => exact stops_failAt (plain e)

@[simp] theorem stops_modify (change : Context → Context) : Stops large (modify change) := by
  rintro before stop after ⟨⟩

@[simp] theorem stops_modifyModel (change : Model → Model) : Stops large (modifyModel change) :=
  stops_modify _

@[simp] theorem stops_ite {p : Prop} [Decidable p] {first second : Build α} :
    Stops large (if p then first else second) ↔ (p → Stops large first) ∧
      (¬ p → Stops large second) := by
  by_cases h : p <;> simp [h]

theorem Stops.bind {step : Build α} {next : α → Build β} (first : Stops large step)
    (second : ∀ ⦃before a middle⦄, Yields step before a middle → Stops large (next a)) :
    Stops large (step >>= next) := by
  intro before stop after run
  rw [run_bind] at run
  split at run
  · next a middle stepped => exact second stepped run
  · next stepped =>
    cases run
    exact first stepped

theorem Stops.map {step : Build α} {f : α → β} (stops : Stops large step) :
    Stops large (f <$> step) := by
  rw [map_eq_pure_bind]
  exact stops.bind fun _ a _ _ => stops_pure (f a)

theorem stops_get_bind {next : Context → Build β} (each : ∀ context, Stops large (next context)) :
    Stops large (get >>= next) := by
  intro before stop after run
  rw [run_get_bind] at run
  exact each before run

theorem Stops.foldlM {items : List α} {step : β → α → Build β} {start : β}
    (each : ∀ b item, Stops large (step b item)) : Stops large (items.foldlM step start) := by
  induction items generalizing start with
  | nil => exact stops_pure start
  | cons item rest ih =>
    rw [List.foldlM_cons]
    exact (each start item).bind fun _ _ _ _ => ih

theorem resolveRepetition_stops (row : RowRef) (siblings : List Field) (id : String)
    (multiplier : Option Cell.Multiplier) :
    Stops large (resolveRepetition row siblings id multiplier) := by
  unfold resolveRepetition
  split
  case h_5 =>
    apply Stops.map
    unfold resolveCount
    dsimp only
    split
    · simp
    · split <;> simp
  all_goals simp

theorem typedShape_stops (o : Outline) (kind : TypeKind) : Stops large (typedShape o kind) := by
  simp [typedShape]

/-- A value that the mask admits can be shifted. -/
theorem fixedValue_stops (o : Outline) (shape : Shape) (value : Nat) :
    Stops large (fixedValue o shape value) := by
  simp only [fixedValue, failAt_bind, stops_ite]
  refine ⟨by simp, fun _ => ?_⟩
  rw [Size.mask_eq]
  apply (stops_pure _).bind
  rintro before limit middle yielded
  obtain ⟨rfl, rfl⟩ := yields_pure.mp yielded
  simp only [stops_ite]
  refine ⟨by simp, fun inRange => ⟨fun narrow => ?_, fun _ => stops_pure value⟩⟩
  simp only [Bool.and_eq_true, beq_iff_eq] at narrow
  have inByte : value ≤ 255 := by simpa [narrow.1, narrow.2, maxOfWidth] using inRange
  apply stops_checked
  intro f failed
  have small : value <<< 8 < Size.bound := by
    rw [Nat.shiftLeft_eq, Size.bound]
    omega
  rw [Size.shiftLeft, Size.check_of_lt small] at failed
  cases failed

/-- The difference of an aligned code is never negative. -/
theorem checkParity_stops (o : Outline) (code : LdpcCode) (bitsBefore : Nat) :
    Stops (Size.bound ≤ o.bits) (checkParity o code bitsBefore) := by
  simp only [checkParity, failAt_bind, stops_ite]
  refine ⟨by simp, fun aligned => ⟨by simp, fun _ => ?_⟩⟩
  simp only [LdpcCode.isByteAligned, Bool.not_eq_true', Bool.not_eq_false, Bool.and_eq_true,
    decide_eq_true_eq] at aligned
  have compared (declared : Option Nat) : Stops (Size.bound ≤ o.bits) (do
      let parityBits ← checked (Size.sub code.codeBits code.messageBits)
      if declared != some parityBits then
        failAt o.row (.invalidParityWidth o.id parityBits)) := by
    have difference : Size.sub code.codeBits code.messageBits = .ok code.parityBits :=
      Size.sub_eq_ok.mpr ⟨rfl, by omega⟩
    rw [difference]
    apply (stops_pure _).bind
    simp
  split
  · exact (stops_pure _).bind fun _ declared _ _ => compared declared
  · next count repetition =>
    apply Stops.bind
    · apply Stops.map
      apply stops_checked
      intro f failed
      simpa [Outline.bits, repetition] using Size.le_of_mul_error failed
    · exact fun _ declared _ _ => compared declared
  · exact (stops_pure _).bind fun _ declared _ _ => compared declared

theorem resolveEnum_stops (document : Document) (key : String) :
    Stops large (resolveEnum document key) := by
  apply stops_get_bind
  intro context
  split
  · exact stops_pure _
  · simp only [fail_bind, stops_ite]
    refine ⟨by simp, fun _ => ?_⟩
    split
    · simp
    · apply Stops.bind
      · apply Stops.foldlM
        intro members row
        unfold buildMember
        apply Stops.bind (by simp)
        intro _ name _ _
        simp only [fail_bind, stops_ite]
        refine ⟨by simp, fun _ => ?_⟩
        apply Stops.bind (by simp)
        intro _ value _ _
        simp only [stops_ite]
        refine ⟨by simp, fun _ => ?_⟩
        split <;> simp
      · intro _ members _ _
        exact (stops_modifyModel _).bind fun _ _ _ _ => stops_pure _

theorem registerDescriptor_stops (key kind : String) (code : Nat) :
    Stops large (registerDescriptor key kind code) := by
  apply stops_get_bind
  intro context
  split <;> simp

theorem buildTemplated_stops (row : RowRef) (anchor typeCell label : String) :
    Stops large (buildTemplated row anchor typeCell label) := by
  apply stops_get_bind
  intro context
  split
  · simp
  · apply Stops.bind (by simp)
    intro _ code _ _
    simp only [failAt_bind, stops_ite]
    refine ⟨by simp, fun _ => ?_⟩
    exact (registerDescriptor_stops _ _ _).bind fun _ _ _ _ => stops_modifyModel _

/-- A row that nests no table reads all it needs by itself. -/
theorem shapeField_stops (document : Document) (nested : String → Build (Option String))
    (o : Outline) (kind : TypeKind) {marker : Marker} (bitsBefore : Nat)
    (notStruct : ∀ key, marker ≠ .struct key) :
    Stops (Size.bound ≤ o.bits) (shapeField document nested o kind marker bitsBefore) := by
  cases marker with
  | payload => exact stops_pure _
  | ldpc codeBits messageBits =>
    exact (checkParity_stops _ _ _).bind fun _ _ _ _ => stops_pure _
  | struct key => exact absurd rfl (notStruct key)
  | enum key =>
    simp only [shapeField, failAt_bind, stops_ite]
    refine ⟨by simp, fun _ => ?_⟩
    exact (resolveEnum_stops document key).bind fun _ _ _ _ => stops_pure _
  | string =>
    simp only [shapeField, failAt_bind, stops_ite]
    refine ⟨by simp, fun _ => ?_⟩
    split
    · exact stops_pure _
    · next count repetition =>
      apply Stops.bind
      · apply stops_checked
        intro f failed
        simpa [Outline.bits, repetition] using Size.le_of_mul_error failed
      · exact fun _ _ _ _ => stops_pure _
    · simp
  | fixed value =>
    apply (typedShape_stops o kind).bind
    intro _ shape _ _
    exact (fixedValue_stops o shape value).bind fun _ _ _ _ => stops_pure _
  | none | template => exact (typedShape_stops o kind).bind fun _ _ _ _ => stops_pure _

/-- By induction on the fields: a window never holds more than was pushed into it. -/
theorem checkWindow_stops (key : String) (index : Nat) (window : BitWindow Nat)
    (fields : List Field) :
    Stops (Size.bound ≤ window.used + packedBits fields) (checkWindow key index window fields) := by
  induction fields generalizing index window with
  | nil =>
    unfold checkWindow
    split <;> simp
  | cons field rest ih =>
    rw [packedBits_cons]
    simp only [checkWindow, stops_ite]
    constructor
    · intro packed
      rw [if_pos packed]
      apply Stops.bind
      · apply stops_checked
        intro f failed
        have large := BitWindow.le_of_push_error failed
        omega
      · intro before pushed middle yielded
        obtain ⟨pushes, -⟩ := yields_checked.mp yielded
        split
        · have used := BitWindow.used_of_push pushes
          apply (ih _ _).mono
          omega
        · simp
    · intro wide
      rw [if_neg wide, Nat.zero_add]
      split
      · exact ih _ _
      · simp

theorem finishStruct_stops (window : Nat) (key : String) (name : Option String) (role : Role)
    (draft : Draft) :
    Stops (Size.bound ≤ packedBits draft.fields) (finishStruct window key name role draft) := by
  simp only [finishStruct, fail_bind, stops_ite]
  refine ⟨fun _ => stops_pure _, fun _ => ⟨by simp, fun _ => ?_⟩⟩
  apply Stops.bind
  · have checks := checkWindow_stops key 0 (BitWindow.empty window) draft.fields
    exact checks.mono (by simp [BitWindow.empty])
  · intro _ _ _ _
    have added (s : Struct) : Stops (Size.bound ≤ packedBits draft.fields) (do
        modifyModel fun model => { model with structs := model.structs ++ [s] }
        return Built.struct s.id) :=
      (stops_modifyModel _).bind fun _ _ _ _ => stops_pure _
    split
    · exact (registerDescriptor_stops _ _ _).bind fun _ _ _ _ => added _
    · exact added _

inductive Justified (document : Document) : Stop → Prop
  | ordinary {stop : Stop} (ordinary : stop.Ordinary (document.Oversized)) :
      Justified document stop
  | recursive {key : String} (cycle : Relation.TransGen document.Refers key key) :
      Justified document (.diagnostic { cause := .recursiveStruct key })

def StopsIn (document : Document) (stack : List String) (step : Build α) : Prop :=
  ∀ ⦃before stop after⦄, before.inProgress = stack → step.run before = (.error stop, after) →
    Justified document stop

variable {document : Document} {stack : List String}

theorem Stops.stopsIn {step : Build α} (stops : Stops large step)
    (tooLarge : large → document.Oversized) :
    StopsIn document stack step :=
  fun _ _ _ _ run => .ordinary ((stops run).mono tooLarge)

theorem Stops.plain {step : Build α} (stops : Stops False step) : StopsIn document stack step :=
  stops.stopsIn False.elim

theorem StopsIn.bind {step : Build α} {next : α → Build β} (first : StopsIn document stack step)
    (evolves : Evolves step)
    (second : ∀ ⦃before a middle⦄, Yields step before a middle → StopsIn document stack (next a)) :
    StopsIn document stack (step >>= next) := by
  intro before stop after busy run
  rw [run_bind] at run
  split at run
  · next a middle stepped =>
    have same : middle.inProgress = stack := (evolves.of_run stepped).inProgress.trans busy
    exact second stepped same run
  · next stepped =>
    cases run
    exact first busy stepped

/-- What follows a step may stop for a reason that has nothing to do with the tables being built. -/
theorem StopsIn.bind_stops {step : Build α} {next : α → Build β}
    (first : StopsIn document stack step)
    (tooLarge : large → document.Oversized)
    (second : ∀ ⦃before a middle⦄, Yields step before a middle → Stops large (next a)) :
    StopsIn document stack (step >>= next) := by
  intro before stop after busy run
  rw [run_bind] at run
  split at run
  · next a middle stepped => exact .ordinary ((second stepped run).mono tooLarge)
  · next stepped =>
    cases run
    exact first busy stepped

theorem stopsIn_ite {p : Prop} [Decidable p] {first second : Build α}
    (yes : p → StopsIn document stack first) (no : ¬ p → StopsIn document stack second) :
    StopsIn document stack (if p then first else second) := by
  split
  · next holds => exact yes holds
  · next fails => exact no fails

theorem StopsIn.whileInProgress {step : Build α} {key : String}
    (stops : StopsIn document (stack ++ [key]) step) :
    StopsIn document stack (whileInProgress key step) := by
  intro before stop after busy run
  rw [run_whileInProgress] at run
  have stack_eq : (before.push key).inProgress = stack ++ [key] := by rw [Context.push, busy]
  exact stops stack_eq (Prod.ext (Prod.mk.inj run).1 rfl)

variable {nested : String → Build (Option String)}

theorem nestedType_stops {row : RowRef} {key : String}
    (inner : StopsIn document stack (nested key)) :
    StopsIn document stack (nestedType nested row key) := by
  apply inner.bind_stops False.elim
  intro _ result _ _
  cases result with
  | none => simp
  | some typeId =>
    apply stops_get_bind
    intro context
    simp only [failAt_bind, stops_ite]
    exact ⟨by simp, fun _ => (stops_modifyModel _).bind fun _ _ _ _ => stops_pure _⟩

theorem buildField_stops {row : RowRef} {siblings : List Field} {cell : TypeCell} {id : String}
    {marker : Marker} {bitsBefore : Nat}
    (inner : ∀ key, marker = .struct key → StopsIn document stack (nested key))
    (tooLarge : Size.bound ≤ cell.bits → document.Oversized) :
    StopsIn document stack
      (buildField document nested row siblings cell id marker bitsBefore) := by
  simp only [buildField, failAt_bind]
  apply stopsIn_ite
  · exact fun _ => Stops.plain (by simp)
  intro _
  apply (resolveRepetition_stops _ _ _ _).plain.bind (resolveRepetition_still _ _ _ _).evolves
  intro _ repetition _ resolved
  apply StopsIn.bind_stops _ False.elim fun _ field _ _ => by simp
  by_cases isStruct : ∃ key, marker = .struct key
  · obtain ⟨key, rfl⟩ := isStruct
    exact (nestedType_stops (inner key rfl)).bind_stops False.elim fun _ _ _ _ => stops_pure _
  · apply Stops.stopsIn (shapeField_stops document nested _ _ _ fun key same => isStruct ⟨key, same⟩)
    rw [Outline.bits, resolveRepetition_bits resolved marker]
    exact tooLarge

theorem buildRows_stops (evolves : ∀ key, Evolves (nested key)) {key : String}
    {name : Option String} {rows : List FieldRow} {index used : Nat} {draft : Draft}
    (inner : ∀ other, (.struct other : Marker) ∈ fieldMarkers rows →
      StopsIn document stack (nested other))
    (total : used + rowBits rows ≤ document.tableBits key)
    (count : draft.fields.length + rows.length ≤ (document.fieldRows key).length)
    (within : document.tableBits key < Size.bound → draft.Within used) :
    StopsIn document stack (buildRows document nested key name index rows draft) := by
  induction rows generalizing index used draft with
  | nil => exact Stops.plain (stops_pure _)
  | cons raw rest ih =>
    rw [rowBits_cons] at total
    rw [List.length_cons] at count
    unfold buildRows
    apply (Stops.plain (by simp)).bind (still_readableAt _ _ _).evolves
    intro _ marker _ read
    have read := (yields_readableAt.mp read).1
    apply (Stops.plain (by simp)).bind (still_readableAt _ _ _).evolves
    intro _ label _ _
    split
    · next anchor =>
      apply Stops.plain
      exact (buildTemplated_stops _ _ _ _).bind fun _ _ _ _ => stops_pure _
    · next notTemplate =>
      rw [fieldMarkers_cons read notTemplate] at inner
      apply (Stops.plain (by simp)).bind (still_readableAt _ _ _).evolves
      intro _ cell _ typed
      rw [FieldRow.bits_of_read (yields_readableAt.mp typed).1] at total
      have nests (other : String) (same : marker = .struct other) :
          StopsIn document stack (nested other) := inner other (same ▸ .head _)
      have names : Stops (1 <<< 31 ≤ (document.fieldRows key).length + 1)
          (checked (freshId draft.fields (Text.snakeCase label))) := by
        apply stops_checked
        intro f failed
        by_contra few
        rw [freshId_succeeds (by omega)] at failed
        cases failed
      apply (names.stopsIn fun many => ⟨key, .inr many⟩).bind (still_checked _).evolves
      intro _ id _ _
      apply (buildField_stops nests fun large => ⟨key, .inl (by omega)⟩).bind
        (buildField_evolves _ _ _ _ _ _ _ evolves)
      intro _ field _ built
      have fits := buildField_within built
      have adds : Stops (Size.bound ≤ document.tableBits key) (checked (draft.add field)) := by
        apply stops_checked
        intro f failed
        by_contra small
        have small := Nat.not_le.mp small
        obtain ⟨extended, added⟩ := (within small).add_succeeds fits (by omega)
        rw [failed] at added
        cases added
      apply (adds.stopsIn fun large => ⟨key, .inl large⟩).bind (still_checked _).evolves
      intro _ extended _ added
      have added := (yields_checked.mp added).1
      have longer := congrArg List.length (add_eq_ok added).1
      rw [List.length_append, List.length_singleton] at longer
      have total : used + cell.bits + rowBits rest ≤ document.tableBits key := by omega
      apply ih (fun other member => inner other (.tail _ member)) total (by dsimp only; omega)
      intro small
      have more := (within small).add fits (by omega) added
      exact ⟨more.size, more.sinceParity, more.packed⟩

theorem tableRows_stops (window : Nat) (evolves : ∀ key, Evolves (nested key)) {key : String}
    (inner : ∀ other, document.Refers key other → StopsIn document stack (nested other))
    (name : Option String) (role : Role) :
    StopsIn document stack (do
      match ← buildRows document nested key name 0 (document.fieldRows key) {} with
      | .templated => return .templated
      | .fields draft => finishStruct window key name role draft) := by
  have rows : StopsIn document stack
      (buildRows document nested key name 0 (document.fieldRows key) {}) :=
    buildRows_stops evolves inner (Nat.le_of_eq (Nat.zero_add _)) (Nat.le_of_eq (Nat.zero_add _))
      fun _ => Draft.within_empty
  apply rows.bind_stops fun large : Size.bound ≤ document.tableBits key => ⟨key, .inl large⟩
  intro _ result _ read
  cases result with
  | templated => exact stops_pure _
  | fields draft =>
    apply (finishStruct_stops window key name role draft).mono
    intro large
    by_contra small
    have total : 0 + rowBits (document.fieldRows key) < Size.bound := by
      rw [Nat.zero_add]
      exact Nat.not_le.mp small
    have packed := (buildRows_within read Draft.within_empty total).packed
    omega

/-- By induction on the depth, which a chain of tables cannot use up: a table is refused as
recursive only where the chain leads back to it. -/
theorem buildTable_stops (window : Nat) {depth : Nat} {key : String} (name : Option String)
    (role : Role) (chain : document.Chain stack key)
    (room : document.structs.length < depth + stack.length) :
    StopsIn document stack (buildTable document window depth key name role) := by
  induction depth generalizing key name role stack with
  | zero =>
    have shorter := chain.length_le
    omega
  | succ depth ih =>
    intro before stop after busy run
    by_cases awaits : before.Awaits key
    · rw [buildTable_run awaits] at run
      have idle : key ∉ stack := busy ▸ awaits.idle
      have inner (other : String) (refers : document.Refers key other) :
          StopsIn document (stack ++ [key]) (nestedStruct document window depth other) := by
        have nested := ih (some other) .nested (chain.push idle refers)
          (by rw [List.length_append, List.length_singleton]; omega)
        apply nested.bind_stops False.elim
        intro _ built _ _
        cases built <;> exact stops_pure _
      have rows := tableRows_stops window (nestedStruct_evolves document window depth) inner name role
      apply rows.whileInProgress.bind_stops False.elim _ busy run
      intro _ built _ _
      exact (stops_modify _).bind fun _ _ _ _ => stops_pure _
    · cases known : before.built.lookup key with
      | some built =>
        rw [buildTable_known known] at run
        cases run
      | none =>
        have member : key ∈ before.inProgress := by
          by_contra idle
          exact awaits ⟨known, idle⟩
        rw [buildTable_busy document window depth known member] at run
        cases run
        exact .recursive (chain.leads key (busy ▸ member))

theorem build_stops (document : Document) (window : Nat) (key : String) (name : Option String)
    (role : Role) : StopsIn document [] (build document window key name role) :=
  buildTable_stops window name role (document.chain_nil key) (by rw [List.length_nil]; omega)

theorem buildStruct_stops (document : Document) (window : Nat) (key : String)
    (name : Option String) (role : Role) :
    StopsIn document [] (buildStruct document window key name role) := by
  apply (build_stops document window key name role).bind_stops False.elim
  intro _ built _ _
  cases built <;> exact stops_pure _

end Builder

end PacketSpec
