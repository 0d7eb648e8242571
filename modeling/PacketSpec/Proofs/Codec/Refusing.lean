import PacketSpec.Proofs.Codec.Declared

/-!
Which error a value is refused with. If there is room for what is written, and enough bytes stand
behind the cursor for every parity, a writer without a parity encoder refuses the first number or
array in the order of writing that does not fit its field, and nothing else.
-/
namespace PacketSpec

namespace Encode

open Wire

variable {α β : Type}

/-- A writer without a parity encoder, in whose buffer every size can be computed. -/
structure Ready (writer : Writer) : Prop where
  ldpc : writer.ldpc = none
  small : writer.buffer.length < Size.bound

theorem Ready.advance {writer after : Writer} {size : Nat} (ready : Ready writer)
    (advances : writer.Advances size after) : Ready after :=
  ⟨advances.ldpc.trans ready.ldpc, advances.length.symm ▸ ready.small⟩

/-- With `size` bytes left and `behind` bytes before the cursor, the step fails with the first of
the errors, or succeeds if there is none. -/
def Judges (step : Encode α) (behind size : Nat) (errors : List EncodeError) : Prop :=
  ∀ ⦃writer⦄, Ready writer → behind ≤ writer.offset → size ≤ writer.remaining →
    match errors with
    | [] => ∃ a after, step.run writer = .ok (.ok a, after)
    | e :: _ => ∃ after, step.run writer = .ok (.error e, after)

variable {behind size : Nat} {errors more : List EncodeError}

theorem judges_pure (a : α) : Judges (pure a) behind size [] :=
  fun writer _ _ _ => ⟨a, writer, rfl⟩

theorem judges_throw (e : EncodeError) : Judges (throw e : Encode α) behind size [e] :=
  fun writer _ _ _ => ⟨writer, rfl⟩

/-- There is never more left than can be computed. -/
theorem judges_of_small {step : Encode α}
    (judges : size < Size.bound → Judges step behind size errors) :
    Judges step behind size errors := by
  intro writer ready enough room
  have small := ready.small
  have left : writer.remaining ≤ writer.buffer.length := Nat.sub_le _ _
  exact judges (by omega) ready enough room

theorem Judges.mono {step : Encode α} (judges : Judges step behind size errors) {further : Nat}
    (less : behind ≤ further) : Judges step further size errors :=
  fun _ ready enough => judges ready (Nat.le_trans less enough)

theorem judges_check_bind {result : Except Fault α} {next : α → Encode β} {a : α}
    (known : result = .ok a) (judges : Judges (next a) behind size errors) :
    Judges (check result >>= next) behind size errors := by
  subst known
  exact judges

/-- The errors of the second step come after those of the first. -/
theorem Judges.bind {step : Encode α} {next : α → Encode β} {taken : Nat}
    (judges : Judges step behind taken errors) (spends : Spends step taken)
    (continues : ∀ a, Judges (next a) (behind + taken) size more) :
    Judges (step >>= next) behind (taken + size) (errors ++ more) := by
  intro writer ready enough room
  have first := judges ready enough (by omega)
  cases errors with
  | cons e rest =>
    obtain ⟨after, run⟩ := first
    exact ⟨after, by rw [run_bind, run]⟩
  | nil =>
    obtain ⟨a, middle, run⟩ := first
    have advances := spends.done run
    have second := continues a (ready.advance advances) (by rw [advances.offset]; omega)
      (by rw [advances.remaining]; omega)
    rw [List.nil_append, run_bind, run]
    exact second

theorem Judges.free_bind {step : Encode α} {next : α → Encode β}
    (judges : Judges step behind 0 errors) (spends : Spends step 0)
    (continues : ∀ a, Judges (next a) behind size more) :
    Judges (step >>= next) behind size (errors ++ more) := by
  have both := judges.bind spends continues
  rwa [Nat.zero_add] at both

theorem judges_put {bytes : Bytes} (spends : Spends (write (Writer.put bytes)) size) :
    Judges (write (Writer.put bytes)) behind size [] := by
  intro writer ready enough room
  have run : (write (Writer.put bytes)).run writer = .ok ((Writer.put bytes).run writer) := rfl
  rw [Writer.put_run] at run
  split at run
  · obtain ⟨encoder, known, -⟩ := spends.short room run
    rw [ready.ldpc] at known
    cases known
  · exact ⟨(), _, run⟩

theorem judges_zeros (size : Nat) : Judges (write (Writer.zeros size)) behind size [] := by
  have spends := spends_zeros size
  rw [Writer.zeros_eq_put] at spends ⊢
  exact judges_put spends

/-- A parity with its whole message behind the cursor is written. -/
theorem judges_parity {code : LdpcCode} (aligned : code.isByteAligned = true)
    (enough : code.messageBits / 8 ≤ behind) :
    Judges (write (Writer.parity code)) behind (code.parityBits / 8) [] := by
  intro writer ready covered room
  have possible : ¬(code.isByteAligned = false ∨ writer.offset < code.messageBits / 8) := by
    simp [aligned]
    omega
  have written := judges_zeros (code.parityBits / 8) ready covered room
  have run : (write (Writer.parity code)).run writer =
      (write (Writer.zeros (code.parityBits / 8))).run writer := by
    show Except.ok ((Writer.parity code).run writer) = _
    rw [Writer.parity_run code ready.ldpc, if_neg possible]
    rfl
  rw [run]
  exact written

theorem judges_mapM {items : List α} {step : α → Encode β} {errors : α → List EncodeError}
    (spends : ∀ item ∈ items, Spends (step item) 0)
    (each : ∀ item ∈ items, Judges (step item) behind 0 (errors item)) :
    Judges (items.mapM step) behind 0 (items.flatMap errors) := by
  induction items with
  | nil => exact judges_pure []
  | cons item rest ih =>
    rw [List.mapM_cons, List.flatMap_cons]
    refine (each item (.head _)).free_bind (spends item (.head _)) fun b => ?_
    have others := ih (fun other member => spends other (.tail _ member))
      fun other member => each other (.tail _ member)
    rw [← List.append_nil (rest.flatMap errors)]
    exact others.free_bind (spends_mapM fun other member => spends other (.tail _ member))
      fun _ => judges_pure _

end Encode

namespace Format

open Wire

def rangeErrors (s : Struct) (field : Field) (n : Nat) : List EncodeError :=
  if n < 1 <<< field.width then []
  else [.invalidScalarValue s.id field.id n (maxOfWidth field.width)]

/-- Numbers are only checked where they are not held in the width of their field. -/
def elementErrors (nested : String → Value → List EncodeError) (s : Struct) (field : Field)
    (value : Value) : List EncodeError :=
  match field.shape, value with
  | .struct typeId, value => nested typeId value
  | .bitfield, .unsigned n => if field.seq then [] else rangeErrors s field n
  | .enum _, .enum value => rangeErrors s field value.toNat
  | _, _ => []

def countErrors (s : Struct) (record : Record) (field : Field) (value : Value) :
    List EncodeError :=
  match field.repetition with
  | .fieldRef _ =>
    let expected := record.repeats s field
    if value.count = expected then []
    else [.invalidArrayCount s.id field.id value.count expected]
  | _ => []

/-- The count of an array is checked before its elements. -/
def fieldErrors (nested : String → Value → List EncodeError) (s : Struct) (record : Record)
    (field : Field) : List EncodeError :=
  if field.isStored then
    match record.lookup field.id with
    | some value => countErrors s record field value ++
        (field.elements value).flatMap (elementErrors nested s field)
    | none => []
  else []

def structErrors (nested : String → Value → List EncodeError) (s : Struct) :
    Value → List EncodeError
  | .record record => s.fields.flatMap (fieldErrors nested s record)
  | _ => []

end Format

namespace Codec

open Wire Encode Format

variable {model : Model} {encoders : String → Option Encoder} {measures : String → Option Measure}
  {bits : String → Value → List Bool} {typed : String → Value → Bool}
  {errors : String → Value → List EncodeError} {s : Struct} {record : Record} {field : Field}
  {value : Value} {behind : Nat}

/-- Steps in a row, each with what the earlier ones have written behind it. -/
theorem judges_forM {α : Type} {items : List α} {step : α → Encode Unit} {bits : α → List Bool}
    {errors : α → List EncodeError} (fills : ∀ item ∈ items, Fills (step item) (bits item))
    (each : ∀ front item back, items = front ++ item :: back →
      Judges (step item) (behind + (front.flatMap bits).length / 8) ((bits item).length / 8)
        (errors item)) :
    Judges (items.forM step) behind ((items.flatMap bits).length / 8) (items.flatMap errors) := by
  induction items generalizing behind with
  | nil => exact judges_pure ()
  | cons item rest ih =>
    have own := fills item (.head _)
    have whole := own.whole
    have length : ((item :: rest).flatMap bits).length / 8 =
        (bits item).length / 8 + (rest.flatMap bits).length / 8 := by
      rw [List.flatMap_cons, List.length_append]
      omega
    have first := each [] item rest rfl
    rw [List.flatMap_nil, List.length_nil, Nat.zero_div, Nat.add_zero] at first
    rw [length, List.flatMap_cons]
    refine first.bind own.spends fun _ => ih (fun other member => fills other (.tail _ member)) ?_
    rintro front other back rfl
    have later := each (item :: front) other back rfl
    have behind : ((item :: front).flatMap bits).length / 8 =
        (bits item).length / 8 + (front.flatMap bits).length / 8 := by
      rw [List.flatMap_cons, List.length_append]
      omega
    rwa [behind, ← Nat.add_assoc] at later

def Judgeable (encoders : String → Option Encoder) (bits : String → Value → List Bool)
    (typed : String → Value → Bool) (errors : String → Value → List EncodeError)
    (id : String) : Prop :=
  ∀ encoder, encoders id = some encoder → ∀ value, typed id value = true →
    Judges (encoder value) 0 ((bits id value).length / 8) (errors id value)

theorem checkRange_judges (narrow : field.width ≤ 64) (n : Nat) :
    Judges (checkRange s field n) behind 0 (rangeErrors s field n) := by
  unfold checkRange rangeErrors
  simp only [← le_maxOfWidth_iff narrow]
  by_cases inside : n ≤ maxOfWidth field.width
  · rw [if_neg (Nat.not_lt.mpr inside), if_pos inside]
    exact judges_pure ()
  · rw [if_pos (Nat.not_le.mp inside), if_neg inside]
    exact judges_throw _

theorem shape_of_stored (stored : field.isStored = true) :
    field.shape ≠ .payload ∧ field.shape.isParity = false := by
  cases shape : field.shape <;> simp_all [Field.isStored, Shape.isParity]

def IsPlural (field : Field) : Prop :=
  field.seq = false ∧ (field.shape.isScalar = true ∨ field.shape = .rational ∨
    field.shape.isStruct = true ∨ field.shape.isEnum = true)

/-- Such elements are numbers, if they are not structures. -/
theorem IsPlural.typed_cases (plural : IsPlural field) (flat : field.shape.isStruct = false)
    (right : elementTyped model field value = true) :
    (∃ n, field.shape = .scalar false ∧ value = .unsigned n) ∨
      (∃ n, field.shape = .scalar true ∧ value = .signed n) ∨
      (∃ number, field.shape = .rational ∧ value = .rational number) ∨
      ∃ typeId member, field.shape = .enum typeId ∧ value = .enum member := by
  obtain ⟨single, shape⟩ := plural
  unfold elementTyped at right
  split at right <;> simp_all [Shape.isScalar, Shape.isEnum, Shape.isStruct]

theorem encodeElement_judges_flat (formed : field.WellFormed) (plural : IsPlural field)
    (flat : field.shape.isStruct = false) (right : elementTyped model field value = true) :
    Judges (encodeElement encoders s field value) behind (field.width / 8)
      (elementErrors errors s field value) := by
  have admits := formed.shape
  rcases plural.typed_cases flat right with ⟨n, shape, rfl⟩ | ⟨n, shape, rfl⟩ |
    ⟨number, shape, rfl⟩ | ⟨typeId, member, shape, rfl⟩ <;>
    rw [shape] at admits <;> simp only [encodeElement, elementErrors, shape]
  · exact judges_put (spends_unsigned _ _)
  · exact judges_put (spends_unsigned _ _)
  · rw [show field.width = 64 from admits]
    exact judges_put (spends_put _)
  · have narrow : field.width ≤ 64 := by grind [Shape.Admits]
    rw [← List.append_nil (rangeErrors s field member.toNat)]
    exact (checkRange_judges narrow _).free_bind (checkRange_spends _) fun _ =>
      judges_put (spends_unsigned _ _)

theorem encodeElement_judges (formed : field.WellFormed) (plural : IsPlural field)
    (right : elementTyped model field value = true)
    (nested : Nests encoders measures bits typed field value)
    (judgeable : ∀ typeId, field.shape = .struct typeId →
      Judgeable encoders bits typed errors typeId) :
    Judges (encodeElement encoders s field value) behind ((elementBits bits field value).length / 8)
      (elementErrors errors s field value) := by
  by_cases flat : field.shape.isStruct = false
  · rw [elementBits_length formed flat right]
    exact encodeElement_judges_flat formed plural flat right
  · obtain ⟨typeId, shape⟩ : ∃ typeId, field.shape = .struct typeId := by
      cases shape : field.shape <;> simp_all [Shape.isStruct]
    obtain ⟨typed, encoder, measure, known, -, -⟩ := nested typeId shape
    have judges := (judgeable typeId shape encoder known value typed).mono (Nat.zero_le behind)
    simpa [encodeElement, elementBits, elementErrors, shape, known] using judges

variable (encoders errors s) in
/-- Any other stored field is written as one piece and never refused. -/
theorem encodeStored_put (formed : field.WellFormed) (wide : field.isPacked = false)
    (stored : field.isStored = true) (right : fieldTyped model field value = true)
    (alone : ¬IsPlural field) :
    (∃ bytes, encodeStored encoders s field value = write (Writer.put bytes)) ∧
      (field.elements value).flatMap (elementErrors errors s field) = [] := by
  have admits := formed.shape
  have sequence : field.seq = true → field.shape.isScalar = true ∨ field.shape = .bitfield :=
    fun seq => (formed.seq seq).1
  have kinds : (∃ signed, field.shape = .scalar signed ∧ field.seq = true) ∨
      field.shape = .bytes ∨ (∃ capacity, field.shape = .string capacity) ∨
      field.shape = .descriptor := by
    cases shape : field.shape <;>
      simp_all [IsPlural, Field.isStored, Field.isPacked, Shape.isScalar, Shape.isStruct,
        Shape.isEnum, Shape.isParity, Shape.Admits]
    omega
  have single : field.repetition = .none := by
    rcases kinds with ⟨_, _, seq⟩ | shape | ⟨_, shape⟩ | shape
    · exact (formed.seq seq).2
    all_goals
      rw [shape] at admits
      simp_all [Shape.Admits]
  simp only [fieldTyped, single] at right
  rw [Field.elements_single single, List.flatMap_singleton]
  unfold elementTyped at right
  rcases kinds with ⟨signed, shape, seq⟩ | shape | ⟨capacity, shape⟩ | shape
  all_goals
    split at right <;> simp_all [encodeStored, elementErrors, Shape.isScalar]
  all_goals exact ⟨_, rfl⟩

section Stored

variable (formed : field.WellFormed) (wide : field.isPacked = false)
  (stored : field.isStored = true) (right : fieldTyped model field value = true)
  (nested : ∀ element ∈ field.elements value, Nests encoders measures bits typed field element)
  (judgeable : ∀ typeId, field.shape = .struct typeId →
    Judgeable encoders bits typed errors typeId)

include formed wide stored right nested judgeable

theorem encodeElements_judges (plural : IsPlural field) :
    Judges (encodeElements encoders s field value) behind
      (((field.elements value).flatMap (elementBits bits field)).length / 8)
      ((field.elements value).flatMap (elementErrors errors s field)) := by
  obtain ⟨header, sized⟩ := shape_of_stored stored
  have fills := encodeElements_fills (s := s) formed wide header sized right nested
  rcases fieldTyped_cases right with ⟨buffer, rfl, buffered, several⟩ | ⟨each, form⟩
  · have plain : encodeElements encoders s field (.bytes buffer) = write (Writer.put buffer) := by
      unfold encodeElements
      split <;> simp_all
    have accepted : (field.elements (.bytes buffer)).flatMap (elementErrors errors s field) = [] := by
      have shape : field.shape = .scalar false := by
        simp [Field.isByteBuffer] at buffered
        exact buffered.1.1
      simp [field.elements_lone, elementErrors, shape]
    rw [plain] at fills ⊢
    rw [accepted]
    exact judges_put fills.spends
  · by_cases single : field.repetition = .none
    · have one : encodeElements encoders s field value = encodeElement encoders s field value := by
        simp [encodeElements, single]
      rw [Field.elements_single single] at each nested ⊢
      rw [List.flatMap_singleton, List.flatMap_singleton, one]
      exact encodeElement_judges formed plural (each value (.head _)) (nested value (.head _))
        judgeable
    · obtain ⟨elements, rfl⟩ := form.resolve_left single
      have several : encodeElements encoders s field (.list elements) =
          elements.forM (encodeElement encoders s field) := by
        unfold encodeElements
        split <;> simp_all
      rw [Field.elements_list single] at each nested ⊢
      rw [several]
      refine judges_forM (fun element member => encodeElement_fills formed wide header sized
        (each element member) (nested element member)) ?_
      rintro front element back rfl
      have member : element ∈ front ++ element :: back := by simp
      exact encodeElement_judges formed plural (each element member) (nested element member)
        judgeable

theorem encodeStored_judges :
    Judges (encodeStored encoders s field value) behind
      (((field.elements value).flatMap (elementBits bits field)).length / 8)
      ((field.elements value).flatMap (elementErrors errors s field)) := by
  by_cases plural : IsPlural field
  · have elements : encodeStored encoders s field value =
        encodeElements encoders s field value := by
      obtain ⟨seq, shape⟩ := plural
      cases kind : field.shape <;>
        simp_all [encodeStored, Shape.isScalar, Shape.isStruct, Shape.isEnum]
    rw [elements]
    exact encodeElements_judges formed wide stored right nested judgeable plural
  · obtain ⟨header, sized⟩ := shape_of_stored stored
    have fills := encodeStored_fills (s := s) formed wide header sized right nested
    obtain ⟨⟨bytes, written⟩, accepted⟩ := encodeStored_put encoders errors s formed wide stored right
      plural
    rw [written] at fills ⊢
    rw [accepted]
    exact judges_put fills.spends

end Stored

theorem fieldErrors_implied (implied : field.isStored = false) :
    fieldErrors errors s record field = [] := by
  simp [fieldErrors, implied]

theorem fieldErrors_stored (stored : field.isStored = true)
    (found : record.lookup field.id = some value) :
    fieldErrors errors s record field = countErrors s record field value ++
      (field.elements value).flatMap (elementErrors errors s field) := by
  simp [fieldErrors, stored, found]

def Covered (field : Field) (behind : Nat) : Prop :=
  ∀ code, field.shape = .parity code →
    code.isByteAligned = true ∧ code.messageBits / 8 ≤ behind

namespace TypedField

variable (typedField : TypedField model encoders measures bits typed s record field)

include typedField

theorem checkCount_judges (right : fieldTyped model field value = true) :
    Judges (checkCount s record field value) behind 0 (countErrors s record field value) := by
  unfold checkCount countErrors
  cases repetition : field.repetition with
  | none => exact judges_pure ()
  | constant count => exact judges_pure ()
  | fieldRef index =>
    obtain ⟨count, counts⟩ := typedField.counted index repetition
    have own : elementCount field value = .ok value.count := by
      simp only [fieldTyped, repetition] at right
      rcases arrayTyped_cases right with ⟨buffer, rfl, -⟩ | ⟨elements, rfl, -, -⟩ <;> rfl
    simp only [repeats_fieldRef repetition counts]
    refine judges_check_bind own (judges_check_bind counts ?_)
    by_cases same : value.count = count
    · simp only [same, bne_self_eq_false, Bool.false_eq_true, if_false, if_true]
      exact judges_pure ()
    · rw [if_neg same, if_pos (by simpa using same)]
      exact judges_throw _

/-- What a value does not hold is never refused. -/
theorem encodeImplied_judges (wide : field.isPacked = false) (implied : field.isStored = false)
    (covered : Covered field behind) :
    Judges (encodeImplied s record field) behind ((fieldBits bits s record field).length / 8)
      [] := by
  have spends := (typedField.encodeImplied_fills wide implied).spends
  rcases typedField.formed.implied_cases wide implied with shape | shape | ⟨code, shape⟩ |
    ⟨n, fixed, single, number⟩
  · simp only [encodeImplied, shape]
    exact judges_pure ()
  · have header : field.shape ≠ .payload := by simp [shape]
    have flat : field.shape.isStruct = false := by simp [shape, Shape.isStruct]
    have whole := typedField.formed.width_whole wide flat (by simp [shape, Shape.isParity]) header
    simp only [encodeImplied, shape]
    split
    · next index repetition =>
      obtain ⟨count, counts, length⟩ := typedField.length_counted flat header repetition
      rw [if_neg (by simp [implied])] at counts
      rw [length, Nat.mul_div_assoc count (Nat.dvd_of_mod_eq_zero whole)]
      exact judges_of_small fun small =>
        judges_check_bind counts (judges_check_bind (Size.check_of_lt small) (judges_zeros _))
    · next known =>
      rw [typedField.length_static flat header known,
        Field.wireBits?_static typedField.measured flat header known]
      exact judges_check_bind rfl (judges_zeros _)
  · simp only [encodeImplied, fieldBits, shape, List.length_replicate]
    exact judges_parity (covered code shape).1 (covered code shape).2
  · rcases number with scalar | shape
    · obtain ⟨signed, shape⟩ : ∃ signed, field.shape = .scalar signed := by
        cases shape : field.shape <;> simp_all [Shape.isScalar]
      simp only [encodeImplied, shape, fixed] at spends ⊢
      exact judges_put spends
    · simp only [encodeImplied, shape, fixed] at spends ⊢
      exact judges_put spends

theorem encodeAligned_judges (wide : field.isPacked = false)
    (judgeable : ∀ typeId, field.shape = .struct typeId →
      Judgeable encoders bits typed errors typeId) (covered : Covered field behind) :
    Judges (encodeAligned encoders s record field) behind
      ((fieldBits bits s record field).length / 8) (fieldErrors errors s record field) := by
  unfold encodeAligned
  by_cases stored : field.isStored = true
  · obtain ⟨value, found, right, nested⟩ := typedField.stored stored
    rw [if_pos stored, fieldBits_stored stored, Record.elements_of_lookup found,
      fieldErrors_stored stored found]
    refine judges_check_bind (Record.get_eq_ok.mpr found) ?_
    refine (typedField.checkCount_judges right).free_bind (checkCount_spends value) fun _ => ?_
    exact encodeStored_judges typedField.formed wide stored right
      (fun element member typeId shape =>
        ⟨nested typeId shape element member, typedField.nested typeId shape⟩) judgeable
  · have implied : field.isStored = false := by simpa using stored
    rw [if_neg stored, fieldErrors_implied implied]
    exact typedField.encodeImplied_judges wide implied covered

/-- A field of a chunk is checked before the chunk is written. -/
theorem packedValue_judges (packed : field.isPacked = true) :
    Judges (packedValue s record field) behind 0 (fieldErrors errors s record field) := by
  obtain ⟨narrow, single, shape⟩ := typedField.formed.packed packed
  unfold packedValue
  cases fixed : field.fixed with
  | some n =>
    rw [fieldErrors_implied (by simp [Field.isStored, fixed])]
    exact judges_pure n
  | none =>
    have stored := typedField.formed.stored_of_packed packed fixed
    obtain ⟨value, found, right⟩ := typedField.right stored
    simp only [fieldTyped, single] at right
    have range (n : Nat) : Judges (do checkRange s field n; pure n) behind 0
        (rangeErrors s field n) := by
      rw [← List.append_nil (rangeErrors s field n)]
      exact (checkRange_judges (by omega) n).free_bind (checkRange_spends n) fun _ => judges_pure n
    rw [fieldErrors_stored stored found, Field.elements_single single, List.flatMap_singleton]
    refine judges_check_bind (Record.get_eq_ok.mpr found) ?_
    simp only [countErrors, single, List.nil_append]
    rcases shape with shape | ⟨typeId, shape⟩
    · obtain ⟨n, rfl⟩ : ∃ n, value = .unsigned n := by
        cases value <;> cases seq : field.seq <;> simp_all [elementTyped]
      cases seq : field.seq with
      | true =>
        simp only [elementErrors, shape, seq, if_true]
        exact judges_pure _
      | false =>
        simp only [elementErrors, shape, seq, Bool.false_eq_true, if_false]
        exact range n
    · obtain ⟨member, rfl⟩ : ∃ member, value = .enum member := by
        have seq := typedField.formed.seq
        cases value <;> cases h : field.seq <;> simp_all [elementTyped, Shape.isScalar]
      simp only [elementErrors, shape]
      exact range member.toNat

end TypedField

theorem encodeChunk_judges {fields : List Field}
    (typedFields : ∀ field ∈ fields, TypedField model encoders measures bits typed s record field)
    (packed : ∀ field ∈ fields, field.isPacked = true) :
    Judges (encodeChunk s record
        ⟨totalWidth fields, BitWindow.place (totalWidth fields) (widthsOf fields)⟩) behind
      (totalWidth fields / 8) (fields.flatMap (fieldErrors errors s record)) := by
  have symbols := BitWindow.place_symbols (totalWidth fields) fields
  generalize BitWindow.place (totalWidth fields) (widthsOf fields) = places at symbols
  have inside (place) (member : place ∈ places) : place.symbol ∈ fields := by
    rw [← symbols]
    exact List.mem_map_of_mem member
  have spends (place : Packed Field) : Spends (do
      return (← packedValue s record place.symbol) <<< place.shift) 0 :=
    (packedValue_spends place.symbol).free_bind fun _ => spends_pure _
  have terms : Judges (places.mapM fun place => do
      return (← packedValue s record place.symbol) <<< place.shift) behind 0
      (places.flatMap fun place => fieldErrors errors s record place.symbol) := by
    refine judges_mapM (fun place _ => spends place) fun place member => ?_
    rw [← List.append_nil (fieldErrors errors s record place.symbol)]
    exact ((typedFields _ (inside place member)).packedValue_judges
      (packed _ (inside place member))).free_bind (packedValue_spends _) fun _ => judges_pure _
  have judges := terms.free_bind (spends_mapM fun place _ => spends place) fun terms =>
    judges_put (spends_unsigned (totalWidth fields / 8) (terms.foldl (· ||| ·) 0))
  rwa [List.append_nil, ← List.flatMap_map, symbols] at judges

theorem encodeSegment_judges {segment : Segment} (sound : segment.Sound)
    (typedFields : ∀ field ∈ segment.fields,
      TypedField model encoders measures bits typed s record field)
    (judgeable : ∀ field ∈ segment.fields, ∀ typeId, field.shape = .struct typeId →
      Judgeable encoders bits typed errors typeId)
    (covered : ∀ field, segment = .aligned field → Covered field behind) :
    Judges (encodeSegment encoders s record segment) behind
      ((segment.fields.flatMap (fieldBits bits s record)).length / 8)
      (segment.fields.flatMap (fieldErrors errors s record)) := by
  cases segment with
  | chunk shared =>
    obtain ⟨fields, -, rfl, -, packed⟩ := sound
    rw [Segment.fields, BitWindow.place_symbols] at typedFields ⊢
    rw [length_packedBits typedFields packed]
    exact encodeChunk_judges typedFields packed
  | aligned field =>
    rw [Segment.fields, List.flatMap_singleton, List.flatMap_singleton]
    exact (typedFields field (.head _)).encodeAligned_judges sound (judgeable field (.head _))
      (covered field rfl)

end Codec

end PacketSpec
