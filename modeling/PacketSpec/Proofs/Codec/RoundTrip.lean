import PacketSpec.Proofs.Codec.Decoding

/-! Reading what was written gives the value back, in normal form, and stops right after it. -/
namespace PacketSpec

open Wire Decode Format

namespace Codec

variable {model : Model} {nested : String → Option Decoder} {bits : String → Value → List Bool}
  {normal : String → Value → Value} {good : String → Value → Bool} {s : Struct}
  {record target : Record} {field : Field} {value : Value}

theorem hold_lookup_other {fields : List Field} {parsed : Parsed} {id : String}
    (other : ∀ field ∈ fields, field.id ≠ id) :
    (fields.foldl (Parsed.hold target) parsed).record.lookup id = parsed.record.lookup id := by
  induction fields generalizing parsed with
  | nil => rfl
  | cons field rest ih =>
    rw [List.foldl_cons, ih fun next member => other next (.tail _ member), Parsed.hold]
    split
    · exact Parsed.lookup_store_other (other field (.head _))
    · rfl

theorem hold_lookup {fields : List Field} {parsed : Parsed}
    (distinct : (fields.map Field.id).Nodup) (member : field ∈ fields)
    (stored : field.isStored = true) :
    (fields.foldl (Parsed.hold target) parsed).record.lookup field.id =
      some ((target.lookup field.id).getD default) := by
  induction fields generalizing parsed with
  | nil => cases member
  | cons first rest ih =>
    rw [List.map_cons, List.nodup_cons] at distinct
    rw [List.foldl_cons]
    rcases List.mem_cons.mp member with rfl | later
    · have fresh : ∀ other ∈ rest, other.id ≠ field.id := fun other inside same =>
        distinct.1 (same ▸ List.mem_map_of_mem inside)
      rw [hold_lookup_other fresh]
      simp [Parsed.hold, stored]
    · exact ih distinct.2 later

theorem hold_payload {fields : List Field} {parsed : Parsed} :
    (fields.foldl (Parsed.hold target) parsed).payload = parsed.payload := by
  induction fields generalizing parsed with
  | nil => rfl
  | cons field rest ih =>
    rw [List.foldl_cons, ih, Parsed.hold]
    split <;> rfl

theorem lookup_map {f : String → Value → Value} {id : String} :
    (record.map fun entry => (entry.1, f entry.1 entry.2)).lookup id =
      (record.lookup id).map (f id) := by
  induction record with
  | nil => rfl
  | cons entry rest ih =>
    obtain ⟨key, value⟩ := entry
    simp only [List.map_cons, List.lookup_cons]
    by_cases same : id = key
    · subst same
      simp
    · have other : (id == key) = false := by simpa using same
      simp only [other]
      exact ih

theorem normalRecord_lookup (distinct : (s.fields.map Field.id).Nodup) (member : field ∈ s.fields)
    (found : record.lookup field.id = some value) :
    (normalRecord model normal s record).lookup field.id =
      some (normalField model normal field value) := by
  unfold normalRecord
  rw [lookup_map, found, Option.map_some, normalEntry, find?_of_nodup distinct member]

variable (normal) in
/-- A count reads as it was written, so that as many elements are read. -/
theorem countAt_held {parsed : Parsed} {count : Field} {index : Nat}
    (repetition : field.repetition = .fieldRef index) (place : s.fields[index]? = some count)
    (counts : count.IsCount) (goodField : GoodField model good s record count)
    (fits : countFits record count = true)
    (held : count.isStored = true → ∀ value, record.lookup count.id = some value →
      parsed.record.lookup count.id = some (normalField model normal count value)) :
    parsed.record.countAt s index = .ok (record.repeats s field) := by
  have stored (free : count.fixed = none) := counts.stored free
  obtain ⟨shape, single⟩ := counts
  cases fixed : count.fixed with
  | some n =>
    simp [Record.countAt, Record.repeats, repetition, place, fixed, Except.toOption]
  | none =>
    have stored := stored fixed
    obtain ⟨value, found, goodValue, -⟩ := goodField.stored stored
    have typed := goodValue.typed
    have held := held stored value found
    simp only [fieldTyped, single] at typed
    obtain ⟨n, rfl⟩ : ∃ n, value = .unsigned n := by
      rcases shape with shape | shape <;> cases value <;> cases seq : count.seq <;>
        simp_all [elementTyped]
    have same : normalField model normal count (.unsigned n) = .unsigned n := by
      cases seq : count.seq with
      | false =>
        rcases shape with shape | shape <;> simp [normalField, single, normalElement, shape, seq]
      | true =>
        simp only [countFits, seq, found, decide_eq_true_eq] at fits
        rcases shape with shape | shape <;>
          simp only [normalField, single, normalElement, shape, seq, if_true, Nat.mod_eq_of_lt fits]
    rw [same] at held
    simp [Record.countAt, Record.repeats, repetition, place, fixed, Record.get, found, held, bind,
      Except.bind, Except.toOption]

structure GoodRecord (model : Model) (good : String → Value → Bool) (s : Struct)
    (record : Record) : Prop where
  ids : (s.fields.map Field.id).Nodup
  fields : ∀ field ∈ s.fields, GoodField model good s record field
  counts : ∀ before field after index, s.fields = before ++ field :: after →
    field.repetition = .fieldRef index →
    ∃ count ∈ before, s.fields[index]? = some count ∧ count.IsCount ∧
      countFits record count = true
  keys : record.map Prod.fst = s.storedFields.map Field.id

theorem GoodRecord.normalized (goodRecord : GoodRecord model good s record)
    (member : field ∈ s.fields) :
    ∀ value, record.lookup field.id = some value →
      (normalRecord model normal s record).lookup field.id =
        some (normalField model normal field value) :=
  fun _ found => normalRecord_lookup goodRecord.ids member found

variable (normal) in
/-- Once the fields before it are read, the count of a field is known. -/
theorem GoodRecord.countAt {before after : List Field} {index : Nat}
    (goodRecord : GoodRecord model good s record) (place : s.fields = before ++ field :: after)
    (repetition : field.repetition = .fieldRef index) :
    (before.foldl (Parsed.hold (normalRecord model normal s record)) {}).record.countAt s index =
      .ok (record.repeats s field) := by
  obtain ⟨count, inside, found, counts, fits⟩ :=
    goodRecord.counts before field after index place repetition
  have member : count ∈ s.fields := place ▸ List.mem_append_left _ inside
  have distinct := goodRecord.ids
  rw [place, List.map_append, List.nodup_append] at distinct
  refine countAt_held normal repetition found counts (goodRecord.fields count member) fits
    fun stored value known => ?_
  rw [hold_lookup distinct.1 inside stored, goodRecord.normalized member value known]
  rfl

/-- Reading the segments one after the other stores the values of all their fields. -/
theorem decodeSegments_parses {segments : List Segment} {before after : List Field}
    (parts : DecodesNested model nested bits normal good)
    (goodRecord : GoodRecord model good s record) (sound : ∀ segment ∈ segments, segment.Sound)
    (place : s.fields = before ++ segments.flatMap Segment.fields ++ after)
    (header : ∀ field ∈ segments.flatMap Segment.fields, field.shape ≠ .payload) :
    Parses (segments.foldlM (decodeSegment model nested s)
        (before.foldl (Parsed.hold (normalRecord model normal s record)) {}))
      ((segments.flatMap Segment.fields).flatMap (fieldBits bits s record))
      ((before ++ segments.flatMap Segment.fields).foldl
        (Parsed.hold (normalRecord model normal s record)) {}) := by
  induction segments generalizing before with
  | nil =>
    rw [List.flatMap_nil, List.append_nil]
    exact parses_pure _
  | cons segment rest ih =>
    rw [List.flatMap_cons] at place header
    have inside (field : Field) (member : field ∈ segment.fields) : field ∈ s.fields := by
      rw [place]
      simp [member]
    have counted : ∀ field ∈ segment.fields, ∀ index, field.repetition = .fieldRef index →
        (before.foldl (Parsed.hold (normalRecord model normal s record)) {}).record.countAt s
          index = .ok (record.repeats s field) := by
      intro field member index repetition
      have alone := (sound segment (.head _)).alone
        (fun other within => (goodRecord.fields other (inside other within)).formed) member
        repetition
      have first : s.fields = before ++ field :: (rest.flatMap Segment.fields ++ after) := by
        simpa [alone] using place
      exact goodRecord.countAt normal first repetition
    rw [List.foldlM_cons, List.flatMap_cons, List.flatMap_append, ← List.append_assoc,
      List.foldl_append]
    refine (decodeSegment_parses parts (fun field member => goodRecord.fields field
      (inside field member)) (sound segment (.head _)) (fun field member => header field (by
        simp [member])) (fun field member => goodRecord.normalized (inside field member))
      counted).bind ?_
    rw [← List.foldl_append, ← List.foldl_append]
    refine ih (fun other member => sound other (.tail _ member)) ?_ fun field member =>
      header field (by simp [member])
    simp [place]

theorem mapM_eq_ok {α β : Type} {items : List α} {step : α → Except Fault β} {result : α → β}
    (each : ∀ item ∈ items, step item = .ok (result item)) :
    items.mapM step = .ok (items.map result) := by
  induction items with
  | nil => rfl
  | cons item rest ih =>
    rw [List.mapM_cons, each item (.head _), ih fun other member => each other (.tail _ member)]
    rfl

/-- A record with distinct names is determined by what it has under them. -/
theorem record_eq_map (distinct : (record.map Prod.fst).Nodup) :
    (record.map Prod.fst).map (fun id => (id, (record.lookup id).getD default)) = record := by
  induction record with
  | nil => rfl
  | cons entry rest ih =>
    obtain ⟨id, value⟩ := entry
    rw [List.map_cons, List.nodup_cons] at distinct
    have others : (rest.map Prod.fst).map
        (fun id' => (id', (((id, value) :: rest : Record).lookup id').getD default)) = rest := by
      refine Eq.trans (List.map_congr_left fun id' member => ?_) (ih distinct.2)
      have other : id' ≠ id := fun same => distinct.1 (same ▸ member)
      rw [List.lookup_cons, beq_false_of_ne other]
    rw [List.map_cons, List.map_cons, others]
    simp

/-- The fields that are stored first. -/
theorem mem_hoisted (member : field ∈ (s.descriptorField?.filter Field.isStored).toList ++
    s.seqField?.toList) : field ∈ s.fields ∧ field.isStored = true := by
  rcases List.mem_append.mp member with descriptor | seq
  · rw [Option.mem_toList, Option.filter_eq_some_iff] at descriptor
    exact ⟨List.mem_of_find?_eq_some descriptor.1, descriptor.2⟩
  · rw [Option.mem_toList] at seq
    have found := List.find?_some seq
    simp only [Bool.and_eq_true] at found
    exact ⟨List.mem_of_find?_eq_some seq, found.2⟩

theorem mem_storedFields (member : field ∈ s.storedFields) :
    field ∈ s.fields ∧ field.isStored = true := by
  unfold Struct.storedFields at member
  rcases List.mem_append.mp member with hoisted | other
  · exact mem_hoisted hoisted
  · obtain ⟨inside, kept⟩ := List.mem_filter.mp other
    simp only [Bool.and_eq_true] at kept
    exact ⟨inside, kept.1⟩

theorem field_eq_of_id {first second : Field} (ids : (s.fields.map Field.id).Nodup)
    (one : first ∈ s.fields) (other : second ∈ s.fields) (same : first.id = second.id) :
    first = second := by
  have found := find?_of_nodup ids one
  rw [same, find?_of_nodup ids other] at found
  exact (Option.some.inj found).symm

theorem nodup_storedFields (ids : (s.fields.map Field.id).Nodup)
    (formed : ∀ field ∈ s.fields, field.WellFormed) : (s.storedFields.map Field.id).Nodup := by
  unfold Struct.storedFields
  simp only
  rw [List.map_append, List.nodup_append]
  refine ⟨?_, ?_, ?_⟩
  · -- a descriptor is no sequence number
    cases found : s.descriptorField?.filter Field.isStored with
    | none => cases s.seqField? <;> simp
    | some descriptor =>
      cases numbered : s.seqField? with
      | none => simp
      | some seq =>
        have first : descriptor ∈ s.fields ∧ _ := mem_hoisted (by simp [found])
        have second : seq ∈ s.fields ∧ _ := mem_hoisted (by simp [numbered])
        rw [Option.filter_eq_some_iff] at found
        have shape := List.find?_some found.1
        have marked := List.find?_some numbered
        simp only [Bool.and_eq_true, beq_iff_eq] at shape marked
        have kind := ((formed seq second.1).seq marked.1).1
        have distinct : descriptor.id ≠ seq.id := by
          intro same
          obtain rfl := field_eq_of_id ids first.1 second.1 same
          simp [shape, Shape.isScalar] at kind
        simp [distinct]
  · exact ids.sublist (List.filter_sublist.map _)
  · intro id early id' later same
    obtain ⟨first, hoisted, rfl⟩ := List.mem_map.mp early
    obtain ⟨second, kept, rfl⟩ := List.mem_map.mp later
    obtain ⟨inside, kept⟩ := List.mem_filter.mp kept
    obtain rfl := field_eq_of_id ids (mem_hoisted hoisted).1 inside same
    simp_all

variable (normal) in
/-- What is stored of all fields is the normal form of the record. -/
theorem GoodRecord.collects (goodRecord : GoodRecord model good s record) {parsed : Parsed}
    (held : ∀ field ∈ s.fields, field.isStored = true → parsed.record.lookup field.id =
      some (((normalRecord model normal s record).lookup field.id).getD default)) :
    (s.storedFields.mapM fun field => do
      return (field.id, ← parsed.record.get field.id) : Except Fault Record) =
      .ok (normalRecord model normal s record) := by
  have keys : (normalRecord model normal s record).map Prod.fst = s.storedFields.map Field.id := by
    rw [← goodRecord.keys, normalRecord, List.map_map]
    rfl
  have distinct := nodup_storedFields goodRecord.ids fun field member =>
    (goodRecord.fields field member).formed
  have whole := record_eq_map (keys ▸ distinct)
  rw [keys, List.map_map] at whole
  rw [← whole]
  apply mapM_eq_ok
  intro field member
  obtain ⟨inside, stored⟩ := mem_storedFields member
  rw [Record.get_eq_ok.mpr (held field inside stored)]
  rfl

theorem GoodRecord.held (goodRecord : GoodRecord model good s record) {before after : List Field}
    (place : s.fields = before ++ after) (implied : ∀ field ∈ after, field.isStored = false) :
    ∀ field ∈ s.fields, field.isStored = true →
      (before.foldl (Parsed.hold target) {}).record.lookup field.id =
        some ((target.lookup field.id).getD default) := by
  intro field member stored
  have distinct := goodRecord.ids
  rw [place, List.map_append, List.nodup_append] at distinct
  rw [place] at member
  rcases List.mem_append.mp member with inside | last
  · exact hold_lookup distinct.1 inside stored
  · simp [implied field last] at stored

/-- A structure without payload reads back from its bits. -/
theorem decodeStruct_parses {window : Nat} {segments : List Segment}
    (parts : DecodesNested model nested bits normal good)
    (goodRecord : GoodRecord model good s record) (laid : layout window s = .ok segments)
    (header : s.payloadField? = none) :
    Parses (decodeStruct model window nested s) (s.fields.flatMap (fieldBits bits s record))
      (.record (normalRecord model normal s record), none) := by
  obtain ⟨whole, sound⟩ := layout_fields laid
  have place : s.fields = [] ++ segments.flatMap Segment.fields ++ [] := by simp [whole]
  have plain : ∀ field ∈ segments.flatMap Segment.fields, field.shape ≠ .payload := by
    rw [whole]
    simpa [Struct.payloadField?] using header
  have parses := decodeSegments_parses parts goodRecord sound place plain
  rw [whole, List.nil_append] at parses
  have collected := goodRecord.collects normal
    (goodRecord.held (List.append_nil s.fields).symm (by simp))
  refine (parses_check laid).after ?_
  rw [← List.append_nil (s.fields.flatMap _)]
  refine parses.bind ((parses_check collected).after ?_)
  rw [hold_payload]
  exact parses_pure _

/-- The payload is as much of the input as its count asks for. -/
theorem decodePayload_run {parsed : Parsed} {before rest : Bytes}
    (fits : s.payloadSizeFits record field = true)
    (counted : ∀ index, field.repetition = .fieldRef index →
      parsed.record.countAt s index = .ok (record.repeats s field)) :
    (decodePayload s parsed.record field).run ⟨before ++ rest, before.length⟩ =
      .ok (.ok (rest.take (s.payloadSize record field rest.length)),
        ⟨before ++ rest, before.length +
          (rest.take (s.payloadSize record field rest.length)).length⟩) := by
  have sliced (size : Nat) : (Decode.read (Reader.slice size)).run ⟨before ++ rest, before.length⟩ =
      .ok (.ok (rest.take size), ⟨before ++ rest, before.length + (rest.take size).length⟩) := by
    rw [read_run, slice_rest]
  have left : (remaining : Decode Nat).run ⟨before ++ rest, before.length⟩ =
      .ok (.ok rest.length, ⟨before ++ rest, before.length⟩) := by
    show Except.ok (Except.ok ((before ++ rest).length - before.length), _) = _
    simp
  unfold decodePayload Struct.payloadSize
  cases repetition : field.repetition with
  | none =>
    simp only [run_bind, left]
    exact sliced _
  | constant count =>
    simp only [Struct.payloadSizeFits, repetition, decide_eq_true_eq] at fits
    simp only [run_bind, Size.mul_eq_ok.mpr ⟨rfl, fits⟩, check_run]
    exact sliced _
  | fieldRef index =>
    simp only [Struct.payloadSizeFits, repetition, decide_eq_true_eq] at fits
    simp only [run_bind, counted index repetition, elementBytes, Size.mul_eq_ok.mpr ⟨rfl, fits⟩,
      check_run]
    exact sliced _

theorem decodeSegment_payload {parsed : Parsed} (shape : field.shape = .payload) :
    decodeSegment model nested s parsed (.aligned field) = do
      return { parsed with payload := some (← decodePayload s parsed.record field) } := by
  simp [decodeSegment, Field.isStored, decodeImplied, shape]

/-- A structure that ends in a payload reads back from its bits and the payload after them. -/
theorem decodeStruct_payload_run {window : Nat} {segments : List Segment} {body : List Field}
    {front bytes rest : Bytes} (parts : DecodesNested model nested bits normal good)
    (goodRecord : GoodRecord model good s record) (laid : layout window s = .ok segments)
    (place : s.fields = body ++ [field]) (shape : field.shape = .payload)
    (header : ∀ other ∈ body, other.shape ≠ .payload)
    (fits : s.payloadSizeFits record field = true)
    (same : bitsOfBytes bytes = s.fields.flatMap (fieldBits bits s record)) :
    (decodeStruct model window nested s).run ⟨front ++ bytes ++ rest, front.length⟩ =
      .ok (.ok (.record (normalRecord model normal s record),
          some (rest.take (s.payloadSize record field rest.length))),
        ⟨front ++ bytes ++ rest, (front ++ bytes).length +
          (rest.take (s.payloadSize record field rest.length)).length⟩) := by
  obtain ⟨whole, sound⟩ := layout_fields laid
  rw [place] at whole
  obtain ⟨first, rfl, fields⟩ := segments_of_last sound whole (by simp [Field.isPacked, shape,
    Shape.isEnum])
  have implied : field.isStored = false := by simp [Field.isStored, shape]
  have empty : fieldBits bits s record field = [] := by simp [fieldBits, shape]
  rw [place, List.flatMap_append, List.flatMap_singleton, empty, List.append_nil] at same
  have split : s.fields = [] ++ first.flatMap Segment.fields ++ [field] := by simp [fields, place]
  have parses := decodeSegments_parses parts goodRecord
    (fun segment member => sound segment (List.mem_append_left _ member)) split
    (by simpa [fields] using header)
  rw [fields, List.nil_append] at parses
  have collected := goodRecord.collects normal (goodRecord.held place (by simpa using implied))
  have counted (index : Nat) (repetition : field.repetition = .fieldRef index) :=
    goodRecord.countAt normal place repetition
  -- the fields before the payload are read, then the payload, then the record is put together
  generalize body.foldl (Parsed.hold (normalRecord model normal s record)) {} = parsed at *
  have headed := parses.reads front bytes rest same
  have payload : (decodePayload s parsed.record field).run
      ⟨front ++ bytes ++ rest, (front ++ bytes).length⟩ = _ := decodePayload_run fits counted
  unfold decodeStruct
  rw [run_bind, laid, check_run]
  simp only [run_bind, List.foldlM_append, List.foldl_nil] at headed ⊢
  rw [headed]
  simp only [List.foldlM_cons, List.foldlM_nil, bind_pure, decodeSegment_payload shape, run_bind,
    payload, pure_run, collected, check_run]

theorem resolved_of_formed {earlier : List Struct}
    (formed : WellFormedFields model earlier s.fields) (enums : ∀ e ∈ model.enums, e.WellFormed)
    (member : field ∈ s.fields) : Resolved model field := by
  refine ⟨fun typeId shape => (formed.structs field member typeId shape).1, fun typeId shape => ?_⟩
  obtain ⟨e, listed, named, -⟩ := formed.enums field member typeId shape
  cases found : model.enum? typeId with
  | some other => exact ⟨other, rfl, enums other (List.mem_of_find?_eq_some found)⟩
  | none =>
    have missing := List.find?_eq_none.mp found e listed
    simp [named] at missing

theorem goodRecord_of_readable {earlier : List Struct}
    (formed : WellFormedFields model earlier s.fields) (enums : ∀ e ∈ model.enums, e.WellFormed)
    (readable : everyRecord (recordReadable model) good s (.record record) = true) :
    GoodRecord model good s record := by
  simp only [everyRecord, recordReadable, recordTyped, recordCounts, recordFits, Bool.and_eq_true,
    List.all_eq_true, beq_iff_eq] at readable
  obtain ⟨⟨⟨keys, typed⟩, counts, fits⟩, nested⟩ := readable
  refine ⟨formed.ids, fun field member => ?_, ?_, keys⟩
  · have typed := typed field member
    have fits := fits field member
    have nested := nested field member
    refine ⟨formed.each field member, resolved_of_formed formed enums member, ?_, ?_⟩
    · intro stored
      simp only [stored, Bool.not_true, Bool.false_or] at typed
      rw [if_pos stored] at fits
      obtain ⟨value, found, typed⟩ := (Option.any_eq_true _ _).mp typed
      rw [found, Option.any_some, fieldFits_iff] at fits
      refine ⟨value, found, ⟨typed, fits.2, fun typeId shape => ?_⟩, fits.1⟩
      rw [shape] at nested
      rwa [Record.elements_of_lookup found, List.all_eq_true] at nested
    · intro padding
      rw [if_neg (by simp [Field.isStored, padding])] at fits
      simpa [padding] using fits
  · intro before field after index place repetition
    obtain ⟨count, inside, found, isCount⟩ := formed.count_before place repetition
    have fits := counts field (by simp [place])
    simp only [repetition, found, Option.all_some] at fits
    exact ⟨count, inside, found, isCount, fits⟩

theorem GoodField.typed (goodField : GoodField model good s record field)
    (stored : field.isStored = true) :
    ∃ value, record.lookup field.id = some value ∧ fieldTyped model field value = true := by
  obtain ⟨value, found, goodValue, -⟩ := goodField.stored stored
  exact ⟨value, found, goodValue.typed⟩

theorem array_length (formed : field.WellFormed) (flat : field.shape.isStruct = false)
    (several : field.repetition ≠ .none) (typed : arrayTyped model field value = true) :
    ((field.elements value).flatMap (elementBits bits field)).length =
      value.count * field.width := by
  rcases arrayTyped_cases typed with ⟨buffer, rfl, buffered⟩ | ⟨elements, rfl, -, typed⟩
  · rw [buffer_bits buffered, length_bitsOfBytes]
    simp only [Field.isByteBuffer, Bool.and_eq_true, beq_iff_eq] at buffered
    rw [buffered.1.2, Value.count, Nat.mul_comm]
  · rw [Field.elements_list several]
    exact length_flatMap_const fun element member =>
      elementBits_length formed flat (typed element member)

variable (bits s) in
/-- A field whose number of elements is given has that many times its width. -/
theorem fieldBits_length (formed : field.WellFormed)
    (typed : field.isStored = true → ∃ value, record.lookup field.id = some value ∧
      fieldTyped model field value = true)
    (flat : field.shape.isStruct = false) (sized : field.shape.isParity = false)
    (header : field.shape ≠ .payload) (known : ∀ index, field.repetition ≠ .fieldRef index) :
    (fieldBits bits s record field).length = record.repeats s field * field.width := by
  by_cases stored : field.isStored = true
  · obtain ⟨value, found, typed⟩ := typed stored
    rw [fieldBits_stored stored, Record.elements_of_lookup found]
    cases repetition : field.repetition with
    | none =>
      simp only [fieldTyped, repetition] at typed
      rw [Field.elements_single repetition, List.flatMap_singleton,
        elementBits_length formed flat typed]
      simp [Record.repeats, repetition]
    | constant count =>
      simp only [fieldTyped, repetition, Bool.and_eq_true, beq_iff_eq] at typed
      obtain ⟨typed, rfl⟩ := typed
      simp only [Record.repeats, repetition]
      exact array_length formed flat (by simp [repetition]) typed
    | fieldRef index => exact absurd repetition (known index)
  · by_cases padding : field.shape = .padding
    · simp [fieldBits, padding]
    · obtain ⟨n, fixed⟩ : ∃ n, field.fixed = some n := by
        cases fixed : field.fixed with
        | some n => exact ⟨n, rfl⟩
        | none => simp [Field.isStored, fixed, padding, sized, header] at stored
      have single := (formed.fixed n fixed).1
      rw [fieldBits_fixed fixed header padding sized, fixedBits, length_bitsOfNat, Record.repeats,
        single, Nat.one_mul]

/-- A field has at least the bits that are known of it in advance. -/
theorem staticBits_le (goodField : GoodField model good s record field) :
    field.staticBits ≤ (fieldBits bits s record field).length := by
  by_cases counted : ∃ index, field.repetition = .fieldRef index
  · obtain ⟨index, repetition⟩ := counted
    have parity (code : LdpcCode) (shape : field.shape = .parity code) : False := by
      have admits := goodField.formed.shape
      simp [shape, Shape.Admits, repetition] at admits
    cases shape : field.shape <;> simp_all [Field.staticBits]
  · have known : ∀ index, field.repetition ≠ .fieldRef index := by simpa using counted
    have same := fieldBits_length bits s goodField.formed goodField.typed
    cases shape : field.shape <;> cases repetition : field.repetition <;>
      simp_all [Field.staticBits, Record.repeats, Shape.isStruct, Shape.isParity, fieldBits,
        Nat.mul_comm]

theorem staticBitsOf_le {fields : List Field}
    (goodFields : ∀ field ∈ fields, GoodField model good s record field) :
    staticBitsOf fields ≤ (fields.flatMap (fieldBits bits s record)).length := by
  induction fields with
  | nil => exact Nat.zero_le _
  | cons field rest ih =>
    rw [staticBitsOf, List.flatMap_cons, List.length_append]
    exact Nat.add_le_add (staticBits_le (goodFields field (.head _)))
      (ih fun other member => goodFields other (.tail _ member))

/-- Names of structures are distinct. -/
theorem struct_eq_of_id {window : Nat} (formed : model.WellFormed window) {first second : Struct}
    (one : first ∈ model.structs) (other : second ∈ model.structs) (same : first.id = second.id) :
    first = second := by
  have distinct := (List.nodup_append.mp formed.names).2.1
  have found := find?_of_nodup distinct one
  rw [same, find?_of_nodup distinct other] at found
  exact (Option.some.inj found).symm

/-- Nested structures have no payload. -/
theorem payloadField?_substruct {window : Nat} (formed : model.WellFormed window)
    (member : s ∈ model.structs) (listed : s.id ∈ model.substructs) : s.payloadField? = none := by
  obtain ⟨nested, among, named, header⟩ := formed.substructs s.id listed
  rwa [struct_eq_of_id formed among member named] at header

/-- The decoders of the nested structures give back what was written for them. -/
theorem decodesNested_meaning {window : Nat} (formed : model.WellFormed window)
    {structs front : List Struct} (place : model.structs.reverse = front ++ structs) :
    DecodesNested model (meaningIn? (decodeStruct model window) structs)
      (meaningOr (fun _ => []) structBits structs)
      (meaningOr (fun value => value) (normalStruct model) structs)
      (meaningOr (fun _ => false) (everyRecord (recordReadable model)) structs) := by
  induction structs generalizing front with
  | nil => nofun
  | cons s earlier ih =>
    have parts := @ih (front ++ [s]) (by simp [place])
    have split : model.structs = earlier.reverse ++ s :: front.reverse := by
      rw [← List.reverse_reverse model.structs, place]
      simp
    have sound := formed.structs earlier.reverse s front.reverse split
    intro id listed value readable
    simp only [meaningIn?, meaningOr] at readable ⊢
    by_cases same : (s.id == id) = true
    · rw [if_pos same] at readable
      simp only [if_pos same]
      obtain rfl := beq_iff_eq.mp same
      have header := payloadField?_substruct formed (by simp [split]) listed
      cases value with
      | record record =>
        have goodRecord := goodRecord_of_readable sound.fields formed.enums readable
        obtain ⟨segments, laid⟩ := sound.laid
        refine ⟨_, rfl, decodeStruct_parses parts goodRecord laid header, ?_⟩
        have positive := sound.occupied
        rw [sound.sizeBits] at positive
        exact Nat.lt_of_lt_of_le positive (staticBitsOf_le goodRecord.fields)
      | _ => cases readable
    · rw [if_neg same] at readable
      simp only [if_neg same]
      exact parts id listed value readable

/-- Only one field is a payload. -/
theorem payload_split {earlier : List Struct} (formed : WellFormedFields model earlier s.fields)
    (found : s.payloadField? = some field) :
    ∃ body after, s.fields = body ++ field :: after ∧ field.shape = .payload ∧
      (∀ other ∈ body, other.shape ≠ .payload) ∧ ∀ other ∈ after, other.shape ≠ .payload := by
  obtain ⟨shape, body, after, place, before⟩ := List.find?_eq_some_iff_append.mp found
  refine ⟨body, after, place, by simpa using shape, by simpa using before, ?_⟩
  intro other member also
  have one := formed.payload
  simp only [place, List.countP_append, List.countP_cons, shape, if_true] at one
  have second : 0 < after.countP (·.shape == .payload) :=
    List.countP_pos_iff.mpr ⟨other, member, by simpa using also⟩
  omega

theorem payload_last {earlier : List Struct} (formed : WellFormedFields model earlier s.fields)
    (last : s.PayloadLast) (found : s.payloadField? = some field) :
    ∃ body, s.fields = body ++ [field] ∧ field.shape = .payload ∧
      ∀ other ∈ body, other.shape ≠ .payload := by
  obtain ⟨body, after, place, shape, before, later⟩ := payload_split formed found
  obtain rfl | ⟨_, final, rfl⟩ := List.eq_nil_or_concat after
  · exact ⟨body, place, shape, before⟩
  · have same := last field found
    rw [place, List.concat_eq_append, ← List.cons_append, ← List.append_assoc,
      List.getLast?_concat] at same
    cases same
    exact absurd shape (later field (by simp))

/-- The decoder of a structure reads the bytes of a value and the payload after them. -/
theorem decoder_run {window : Nat} {bytes : Bytes} (formed : model.WellFormed window)
    (member : s ∈ model.structs) (last : s.PayloadLast)
    (readable : model.readable s.id (.record record) = true)
    (fits : s.payloadField?.all (s.payloadSizeFits record) = true)
    (same : bitsOfBytes bytes = model.wireBits s.id (.record record)) :
    ∃ decoder, model.decoder window s.id = .ok decoder ∧ ∀ front rest,
      decoder.run ⟨front ++ bytes ++ rest, front.length⟩ =
        .ok (.ok (model.normal s.id (.record record), s.payloadOf record rest),
          ⟨front ++ bytes ++ rest,
            (front ++ bytes).length + ((s.payloadOf record rest).getD []).length⟩) := by
  obtain ⟨earlier, later, place⟩ := List.append_of_mem member
  have sound := formed.structs earlier s later place
  have split : model.structs.reverse = (later.reverse ++ [s]) ++ earlier.reverse := by simp [place]
  have parts := decodesNested_meaning formed split
  rw [Model.readable, Model.everyRecord, formed.meaningOr_self place] at readable
  rw [Model.wireBits, formed.meaningOr_self place] at same
  have goodRecord := goodRecord_of_readable sound.fields formed.enums readable
  obtain ⟨segments, laid⟩ := sound.laid
  refine ⟨_, formed.meaning_self place _, fun front rest => ?_⟩
  rw [Model.normal, formed.meaningOr_self place, Struct.payloadOf]
  cases found : s.payloadField? with
  | none => exact (decodeStruct_parses parts goodRecord laid found).reads front bytes rest same
  | some field =>
    obtain ⟨body, split, shape, header⟩ := payload_last sound.fields last found
    rw [found, Option.all_some] at fits
    exact decodeStruct_payload_run parts goodRecord laid split shape header fits same

end Codec

/-- Whatever follows the bytes of a value, reading them gives the normal form of the value and the
payload that the value announces, and stops right after that. -/
theorem decode_encodeToBytes {document : Document} {window : Nat} {source : String}
    {model : Model} {s : Struct} {record : Record} {bytes : Bytes}
    (accepted : analyze document window source = .ok model) (member : s ∈ model.structs)
    (last : s.PayloadLast) (typed : model.hasType s.id (.record record) = true)
    (counts : model.countsFit s.id (.record record) = true)
    (fits : s.payloadField?.all (s.payloadSizeFits record) = true)
    (encoded : model.encodeToBytes window s.id (.record record) = .ok (.ok bytes))
    (rest : Bytes) :
    model.decode window s.id (bytes ++ rest) = .ok (.ok {
        packet := model.normal s.id (.record record)
        payload := s.payloadOf record rest
        size := bytes.length + ((s.payloadOf record rest).getD []).length }) ∧
    ∀ front, (model.decodeFrom window s.id).run ⟨front ++ bytes ++ rest, front.length⟩ =
      .ok (.ok (model.normal s.id (.record record)),
        ⟨front ++ bytes ++ rest,
          (front ++ bytes).length + ((s.payloadOf record rest).getD []).length⟩) := by
  have formed : model.WellFormed window :=
    { coherent_of_analyze accepted with names := names_of_analyze accepted }
  obtain ⟨bits, written⟩ := Model.encodeToBytes_bits formed encoded
  have readable : model.readable s.id (.record record) = true := by
    rw [Model.readable_eq, typed, counts, written]
    rfl
  obtain ⟨decoder, known, run⟩ := Codec.decoder_run formed member last readable fits bits
  refine ⟨?_, fun front => ?_⟩
  · have run := run [] rest
    rw [List.nil_append, List.length_nil] at run
    simp only [Model.decode, known, bind, Except.bind, run]
    rfl
  · simp only [Model.decodeFrom, run_bind, known, check_run]
    rw [← bind_pure_comp, run_bind, run front rest]
    rfl

/-- The sample packet reads back from its bytes, with the payload of two bytes that it announces. -/
theorem decode_sampleBytes :
    sampleModel.decode 32 sampleStruct.id (sampleBytes ++ [7, 8, 9]) = .ok (.ok {
      packet := sampleModel.normal sampleStruct.id (.record sampleRecord)
      payload := some [7, 8]
      size := 16 }) := by
  have last : sampleStruct.PayloadLast := by
    have same : sampleStruct.fields.getLast? = sampleStruct.payloadField? := by decide +kernel
    exact fun field found => same.trans found
  have payload : sampleStruct.payloadOf sampleRecord [7, 8, 9] = some [7, 8] := by decide +kernel
  have read := (decode_encodeToBytes analyze_sample sampleStruct_mem last (by decide +kernel)
    (by decide +kernel) (by decide +kernel) encodeToBytes_sample [7, 8, 9]).1
  rw [payload] at read
  exact read

end PacketSpec
