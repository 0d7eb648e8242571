import PacketSpec.Proofs.Codec.Retention
import PacketSpec.Proofs.Codec.RoundTrip

/-!
Writing what was read. The length of what is written shows whether some read went past the end of
the input; if none did, the bytes come back as they were, apart from those that values do not hold.
-/
namespace PacketSpec

open Wire Decode

namespace Codec

open Format

variable {model : Model} {nested : String → Option Decoder}
  {bits kept : String → Value → List Bool} {s : Struct} {record : Record} {field : Field}
  {value : Value}

def RecodesFields (bits kept : String → Value → List Bool) (s : Struct) (record : Record)
    (fields : List Field) (taken : Bytes) : Prop :=
  Recodes (fields.flatMap (fieldBits bits s record)) (fields.flatMap (fieldKept kept s record))
    taken

theorem RecodesFields.append {front back : List Field} {taken more : Bytes}
    (first : RecodesFields bits kept s record front taken)
    (second : RecodesFields bits kept s record back more) :
    RecodesFields bits kept s record (front ++ back) (taken ++ more) := by
  rw [RecodesFields, List.flatMap_append, List.flatMap_append]
  exact Recodes.append first second

/-- The fields are read: nothing is stored under other names, and the payload is left. -/
structure Extends (fields : List Field) (before after : Parsed) : Prop where
  others : ∀ id, (∀ field ∈ fields, field.id ≠ id) →
    after.record.lookup id = before.record.lookup id
  payload : after.payload = before.payload

theorem Extends.refl {fields : List Field} {parsed : Parsed} : Extends fields parsed parsed :=
  ⟨fun _ _ => rfl, rfl⟩

theorem Extends.append {front back : List Field} {before middle after : Parsed}
    (first : Extends front before middle) (second : Extends back middle after) :
    Extends (front ++ back) before after := by
  refine ⟨fun id other => ?_, second.payload.trans first.payload⟩
  rw [second.others id fun field member => other field (List.mem_append_right _ member),
    first.others id fun field member => other field (List.mem_append_left _ member)]

theorem extends_store {parsed : Parsed} : Extends [field] parsed (parsed.store field value) :=
  ⟨fun _ other => Parsed.lookup_store_other (other field (.head _)), rfl⟩

def Agrees (record stored : Record) (fields : List Field) : Prop :=
  ∀ field ∈ fields, field.isStored = true → record.lookup field.id = stored.lookup field.id

/-- What was stored for fields stays when others are read. -/
theorem Agrees.before {front back : List Field} {middle after : Parsed}
    (agrees : Agrees record after.record (front ++ back)) (grows : Extends back middle after)
    (distinct : ((front ++ back).map Field.id).Nodup) : Agrees record middle.record front := by
  intro field member stored
  rw [List.map_append, List.nodup_append] at distinct
  rw [agrees field (List.mem_append_left _ member) stored]
  refine grows.others field.id fun other within same => ?_
  exact distinct.2.2 _ (List.mem_map_of_mem member) _ (List.mem_map_of_mem within) same.symm

theorem Agrees.last {front back : List Field} {stored : Record}
    (agrees : Agrees record stored (front ++ back)) : Agrees record stored back :=
  fun field member => agrees field (List.mem_append_right _ member)

/-- A record that agrees with the fields before an array has the same count for it. -/
theorem Agrees.countAt {earlier : List Struct} {before after : List Field} {stored : Record}
    {index : Nat} (formed : WellFormedFields model earlier s.fields)
    (place : s.fields = before ++ field :: after) (repetition : field.repetition = .fieldRef index)
    (agrees : Agrees record stored before) : record.countAt s index = stored.countAt s index := by
  obtain ⟨count, inside, found, counts⟩ := formed.count_before place repetition
  unfold Record.countAt
  rw [found]
  cases fixed : count.fixed with
  | some n => simp [fixed]
  | none => simp only [fixed, Record.get, agrees count inside (counts.stored fixed)]

/-- All bits of a packed field are kept. -/
theorem fieldKept_packed (formed : field.WellFormed) (packed : field.isPacked = true) :
    fieldKept kept s record field = allKept (fieldBits bits s record field) := by
  obtain ⟨-, single, shape⟩ := formed.packed packed
  have element (value : Value) :
      elementKept kept field value = allKept (elementBits bits field value) := by
    have same : elementBits (fun _ _ => []) field value = elementBits bits field value :=
      elementBits_congr fun typeId nesting => by
        rcases shape with shape | ⟨_, shape⟩ <;> simp [shape] at nesting
    rcases shape with shape | ⟨typeId, shape⟩ <;> simp only [elementKept, shape, same]
  cases fixed : field.fixed with
  | some n =>
    rcases shape with shape | ⟨typeId, shape⟩ <;> simp [fieldKept, fieldBits, shape, fixed]
  | none =>
    have stored := formed.stored_of_packed packed fixed
    rw [fieldKept_stored stored, fieldBits_stored stored]
    cases found : record.lookup field.id with
    | none => simp [Record.elements, found, allKept]
    | some value =>
      rw [Record.elements_of_lookup found, Field.elements_single single, List.flatMap_singleton,
        List.flatMap_singleton, element]

variable (bits) in
/-- What is stored of a packed field is written as the bits that the word has in its place. -/
theorem decodePacked_takes {parsed : Parsed} {word : Nat} {place : Packed Field}
    (formed : place.symbol.WellFormed) (packed : place.symbol.isPacked = true)
    (width : place.width = place.symbol.width) :
    Takes (decodePacked model s word parsed place) fun after taken => taken = [] ∧
      Extends [place.symbol] parsed after ∧ ∀ record, Agrees record after.record [place.symbol] →
        fieldBits bits s record place.symbol = bitsOfNat place.width (word >>> place.shift) := by
  obtain ⟨-, single, shape⟩ := formed.packed packed
  have held {value : Value} (free : place.symbol.fixed = none) {record : Record}
      (agrees : Agrees record (parsed.store place.symbol value).record [place.symbol]) :
      fieldBits bits s record place.symbol = elementBits bits place.symbol value := by
    have stored := formed.stored_of_packed packed free
    have found : record.lookup place.symbol.id = some value := by
      rw [agrees place.symbol (.head _) stored, Parsed.lookup_store_self]
    rw [fieldBits_stored stored, Record.elements_of_lookup found, Field.elements_single single,
      List.flatMap_singleton]
  unfold decodePacked
  simp only
  split
  · next n fixed =>
    refine takes_after takes_checkFixed fun _ same => takes_pure ⟨rfl, .refl, fun record _ => ?_⟩
    rcases shape with shape | ⟨typeId, shape⟩ <;>
      simp only [fieldBits, shape, fixed, fixedBits, reduceCtorEq, false_and, if_false, ← same,
        ← width, bitsOfNat_mod]
  · next typeId free enum =>
    refine takes_after takes_check fun e _ => takes_pure ⟨rfl, extends_store, ?_⟩
    intro record agrees
    rw [held free agrees]
    simp only [elementBits, enum, Enum.toNat_ofNat, ← width, bitsOfNat_mod]
  · next free other =>
    refine takes_pure ⟨rfl, extends_store, fun record agrees => ?_⟩
    rw [held free agrees]
    rcases shape with shape | ⟨typeId, shape⟩
    · simp only [elementBits, shape, ← width, bitsOfNat_mod]
    · exact absurd shape (other typeId)

variable (bits) in
/-- The same for all fields of a chunk. -/
theorem decodePackeds_takes {parsed : Parsed} {word : Nat} {places : List (Packed Field)}
    (formed : ∀ place ∈ places, place.symbol.WellFormed)
    (packed : ∀ place ∈ places, place.symbol.isPacked = true)
    (width : ∀ place ∈ places, place.width = place.symbol.width)
    (distinct : ((places.map Packed.symbol).map Field.id).Nodup) :
    Takes (places.foldlM (decodePacked model s word) parsed) fun after taken => taken = [] ∧
      Extends (places.map Packed.symbol) parsed after ∧
      ∀ record, Agrees record after.record (places.map Packed.symbol) →
        (places.map Packed.symbol).flatMap (fieldBits bits s record) =
          places.flatMap fun place => bitsOfNat place.width (word >>> place.shift) := by
  induction places generalizing parsed with
  | nil => exact takes_pure ⟨rfl, .refl, fun _ _ => rfl⟩
  | cons place rest ih =>
    rw [List.foldlM_cons]
    refine takes_after (decodePacked_takes bits (formed place (.head _)) (packed place (.head _))
      (width place (.head _))) ?_
    rintro middle ⟨first, written⟩
    refine (ih (fun other member => formed other (.tail _ member))
      (fun other member => packed other (.tail _ member))
      (fun other member => width other (.tail _ member)) (List.nodup_cons.mp distinct).2).mono ?_
    rintro after _ ⟨rfl, second, others⟩
    refine ⟨rfl, first.append second, fun record agrees => ?_⟩
    have agrees : Agrees record after.record ([place.symbol] ++ rest.map Packed.symbol) := agrees
    rw [List.map_cons, List.flatMap_cons, List.flatMap_cons,
      written record (agrees.before second distinct), others record agrees.last]

variable (bits kept) in
theorem decodeChunk_takes {parsed : Parsed} {fields : List Field}
    (formed : ∀ field ∈ fields, field.WellFormed)
    (packed : ∀ field ∈ fields, field.isPacked = true) (whole : totalWidth fields % 8 = 0)
    (distinct : (fields.map Field.id).Nodup) :
    Takes (decodeChunk model s parsed
        ⟨totalWidth fields, BitWindow.place (totalWidth fields) (widthsOf fields)⟩)
      fun after taken => Extends fields parsed after ∧
        ∀ record, Agrees record after.record fields →
          RecodesFields bits kept s record fields taken := by
  have symbols := BitWindow.place_symbols (totalWidth fields) fields
  have inside (place : Packed Field)
      (member : place ∈ BitWindow.place (totalWidth fields) (widthsOf fields)) :
      place.symbol ∈ fields := symbols ▸ List.mem_map_of_mem member
  -- the word is read whole or as zero; its bits in the places of the fields are all of its bits
  refine takes_bind (takes_unsigned (Nat.mul_div_cancel' (Nat.dvd_of_mod_eq_zero whole)))
    fun word taken recodes => ?_
  refine (decodePackeds_takes bits (fun place member => formed _ (inside place member))
    (fun place member => packed _ (inside place member)) (BitWindow.place_widths _ _)
    (by rwa [symbols])).mono ?_
  rintro after _ ⟨rfl, grows, written⟩
  rw [symbols] at grows written
  refine ⟨grows, fun record agrees => ?_⟩
  rw [RecodesFields, List.append_nil, flatMap_allKept fun field member =>
    fieldKept_packed (formed field member) (packed field member), written record agrees,
    BitWindow.place_bits]
  exact recodes

theorem decodeSegment_takes {parsed : Parsed} {segment : Segment}
    (parts : TakesNested model nested bits kept)
    (formed : ∀ field ∈ segment.fields, field.WellFormed)
    (resolved : ∀ field ∈ segment.fields, Resolved model field) (sound : segment.Sound)
    (header : ∀ field ∈ segment.fields, field.shape ≠ .payload)
    (distinct : (segment.fields.map Field.id).Nodup) :
    Takes (decodeSegment model nested s parsed segment) fun after taken =>
      Extends segment.fields parsed after ∧
      ∀ record : Record, (∀ field ∈ segment.fields, ∀ index, field.repetition = .fieldRef index →
        record.countAt s index = parsed.record.countAt s index) →
        Agrees record after.record segment.fields →
        RecodesFields bits kept s record segment.fields taken := by
  cases segment with
  | chunk shared =>
    obtain ⟨fields, -, rfl, whole, packed⟩ := sound
    simp only [Segment.fields, BitWindow.place_symbols] at formed distinct ⊢
    apply (decodeChunk_takes bits kept formed packed whole distinct).mono
    intro after taken chunk
    exact ⟨chunk.1, fun record _ => chunk.2 record⟩
  | aligned field =>
    have formed := formed field (.head _)
    simp only [Segment.fields, RecodesFields, List.flatMap_singleton, decodeSegment]
    split
    · next stored =>
      refine Takes.return (parsed.store field) ((decodeStored_takes parts formed
        (resolved field (.head _)) sound).mono fun value taken recodes => ⟨extends_store, ?_⟩)
      intro record _ agrees
      have found : record.lookup field.id = some value := by
        rw [agrees field (.head _) stored, Parsed.lookup_store_self]
      rwa [fieldBits_stored stored, fieldKept_stored stored, Record.elements_of_lookup found]
    · refine (decodeImplied_takes bits kept formed sound (header field (.head _))).mono ?_
      rintro after taken ⟨rfl, recodes⟩
      exact ⟨.refl, fun record counted _ => recodes record (counted field (.head _))⟩

/-- The segments one after the other. A record that agrees with all that was stored, also before
them, is written as what they took. -/
theorem decodeSegments_takes {earlier : List Struct} {segments : List Segment} {parsed : Parsed}
    {before after : List Field} (parts : TakesNested model nested bits kept)
    (formed : WellFormedFields model earlier s.fields)
    (resolved : ∀ field ∈ s.fields, Resolved model field)
    (sound : ∀ segment ∈ segments, segment.Sound)
    (place : s.fields = before ++ segments.flatMap Segment.fields ++ after)
    (header : ∀ field ∈ segments.flatMap Segment.fields, field.shape ≠ .payload) :
    Takes (segments.foldlM (decodeSegment model nested s) parsed) fun last taken =>
      Extends (segments.flatMap Segment.fields) parsed last ∧
      ∀ record, Agrees record last.record (before ++ segments.flatMap Segment.fields) →
        RecodesFields bits kept s record (segments.flatMap Segment.fields) taken := by
  induction segments generalizing before parsed with
  | nil => exact takes_pure ⟨.refl, fun _ _ => .none_taken rfl⟩
  | cons segment rest ih =>
    rw [List.flatMap_cons] at place header
    have part : (before ++ segment.fields ++ rest.flatMap Segment.fields).Sublist s.fields := by
      simp [place]
    have distinct := formed.ids.sublist (part.map Field.id)
    have distinctFirst := distinct.sublist ((List.sublist_append_left _ _).map Field.id)
    have inside (field : Field) (member : field ∈ segment.fields) : field ∈ s.fields :=
      part.subset (by simp [member])
    rw [List.foldlM_cons, List.flatMap_cons]
    refine takes_bind (decodeSegment_takes parts (fun field member => formed.each field
      (inside field member)) (fun field member => resolved field (inside field member))
      (sound segment (.head _)) (fun field member => header field (List.mem_append_left _ member))
      (distinctFirst.sublist ((List.sublist_append_right _ _).map Field.id)))
      ?_
    rintro middle taken ⟨first, recodes⟩
    refine (ih (fun other member => sound other (.tail _ member))
      (show s.fields = before ++ segment.fields ++ rest.flatMap Segment.fields ++ after by
        simp [place])
      fun field member => header field (List.mem_append_right _ member)).mono ?_
    rintro last more ⟨second, others⟩
    refine ⟨first.append second, fun record agrees => ?_⟩
    rw [← List.append_assoc] at agrees
    -- the later segments leave what this one and those before it stored, counts included
    have settled := agrees.before second distinct
    refine (recodes record ?_ settled.last).append (others record agrees)
    intro field member index repetition
    have alone := (sound segment (.head _)).alone
      (fun other within => formed.each other (inside other within)) member repetition
    have next : s.fields = before ++ field :: (rest.flatMap Segment.fields ++ after) := by
      simpa [alone] using place
    exact (settled.before first distinctFirst).countAt formed next repetition

theorem decodePayload_takes :
    Takes (decodePayload s record field) fun bytes taken => taken = bytes := by
  unfold decodePayload
  split
  · exact takes_after takes_remaining fun size _ => takes_slice fun _ => rfl
  · exact takes_after takes_check fun size _ => takes_slice fun _ => rfl
  · refine takes_after takes_check fun count _ => ?_
    exact takes_after takes_check fun size _ => takes_slice fun _ => rfl

theorem takes_payload_segment {parsed : Parsed} (shape : field.shape = .payload) :
    Takes (decodeSegment model nested s parsed (.aligned field)) fun after taken =>
      after = { parsed with payload := some taken } := by
  rw [decodeSegment_payload shape]
  refine Takes.return (fun bytes => { parsed with payload := some bytes }) ?_
  exact decodePayload_takes.mono fun bytes taken same => by rw [same]

/-- The fields before the payload, and from it on. -/
theorem fields_around {body after : List Field} (place : s.fields = body ++ after)
    (before : ∀ other ∈ body, other.shape ≠ .payload)
    (next : ∀ first ∈ after.head?, first.shape = .payload) :
    s.fields.takeWhile (·.shape != .payload) = body ∧
      s.fields.dropWhile (·.shape != .payload) = after := by
  have passed : ∀ other ∈ body, (other.shape != .payload) = true := by simpa using before
  rw [place, List.takeWhile_append_of_pos passed, List.dropWhile_append_of_pos passed]
  cases after with
  | nil => simp
  | cons first rest =>
    have stop := next first rfl
    simp [stop]

/-- Reading all segments takes the fields before the payload, the payload, and the fields after
it. -/
theorem decodeSegments_takes_payload {earlier : List Struct} {segments : List Segment}
    (parts : TakesNested model nested bits kept) (formed : WellFormedFields model earlier s.fields)
    (resolved : ∀ field ∈ s.fields, Resolved model field)
    (sound : ∀ segment ∈ segments, segment.Sound)
    (whole : segments.flatMap Segment.fields = s.fields) :
    Takes (segments.foldlM (decodeSegment model nested s) {}) fun last taken =>
      ∃ head tail, taken = head ++ last.payload.getD [] ++ tail ∧
        (s.payloadField? = none → last.payload = none) ∧
        ∀ record, Agrees record last.record s.fields →
          RecodesFields bits kept s record (s.fields.takeWhile (·.shape != .payload)) head ∧
          RecodesFields bits kept s record (s.fields.dropWhile (·.shape != .payload)) tail := by
  cases found : s.payloadField? with
  | none =>
    have header : ∀ field ∈ s.fields, field.shape ≠ .payload := by
      simpa [Struct.payloadField?] using found
    have all := fields_around (List.append_nil s.fields).symm header (by simp)
    refine (decodeSegments_takes parts formed resolved sound
      (show s.fields = [] ++ segments.flatMap Segment.fields ++ [] by simp [whole])
      (by rwa [whole])).mono ?_
    rintro last taken ⟨grows, recodes⟩
    rw [whole] at recodes
    refine ⟨taken, [], ?_, fun _ => grows.payload, fun record agrees => ?_⟩
    · simp [grows.payload]
    · rw [all.1, all.2]
      exact ⟨recodes record agrees, .none_taken rfl⟩
  | some field =>
    obtain ⟨body, after, place, shape, before, later⟩ := payload_split formed found
    have wide : field.isPacked = false := by simp [Field.isPacked, shape, Shape.isEnum]
    obtain ⟨front, back, rfl, frontFields, backFields⟩ :=
      segments_split sound (whole.trans place) wide
    have around := fields_around place before (by simpa using shape)
    have split : s.fields = body ++ [field] ++ back.flatMap Segment.fields := by
      simp [backFields, place]
    rw [List.foldlM_append]
    refine takes_bind (decodeSegments_takes parts formed resolved
      (fun segment member => sound segment (by simp [member]))
      (show s.fields = [] ++ front.flatMap Segment.fields ++ (field :: after) by
        simp [frontFields, place])
      (by rwa [frontFields])) ?_
    rintro middle head ⟨first, recodes⟩
    rw [List.foldlM_cons]
    refine takes_bind (takes_payload_segment shape) ?_
    rintro _ payload rfl
    refine (decodeSegments_takes parts formed resolved
      (fun segment member => sound segment (by simp [member]))
      (show s.fields = body ++ [field] ++ back.flatMap Segment.fields ++ [] by simp [← split])
      (by rwa [backFields])).mono ?_
    rintro last tail ⟨second, others⟩
    refine ⟨head, tail, by simp [second.payload], by simp, fun record agrees => ?_⟩
    rw [split] at agrees
    -- what stands after the payload does not change what stands before it
    have settled := agrees.before second (split ▸ formed.ids)
    have following := others record agrees
    rw [around.1, around.2]
    refine ⟨?_, ?_⟩
    · rw [frontFields] at recodes
      exact recodes record fun other member => settled other (List.mem_append_left _ member)
    · rw [backFields] at following
      simpa [RecodesFields, fieldBits, fieldKept, shape] using following

theorem mem_storedFields_of_mem (member : field ∈ s.fields) (stored : field.isStored = true) :
    field ∈ s.storedFields := by
  unfold Struct.storedFields
  simp only [List.mem_append, List.mem_filter, Bool.and_eq_true, stored, true_and]
  by_cases hoisted : field ∈ (s.descriptorField?.filter Field.isStored).toList ++ s.seqField?.toList
  · exact .inl (List.mem_append.mp hoisted)
  · refine .inr ⟨member, ?_⟩
    rwa [Bool.not_eq_true', ← Bool.not_eq_true, List.contains_iff_mem]

/-- A record that is put together from what was stored has just that. -/
theorem lookup_collected {fields : List Field} {stored : Record}
    (collected : (fields.mapM fun field => do
      return (field.id, ← stored.get field.id) : Except Fault Record) = .ok record) :
    ∀ field ∈ fields, record.lookup field.id = stored.lookup field.id := by
  induction fields generalizing record with
  | nil => nofun
  | cons first rest ih =>
    simp only [List.mapM_cons, bind_eq_ok, pure_eq_ok] at collected
    obtain ⟨_, ⟨value, known, rfl⟩, others, collected, rfl⟩ := collected
    have found := Record.get_eq_ok.mp known
    intro field member
    by_cases same : field.id = first.id
    · rw [same, found, List.lookup_cons_self]
    · rcases List.mem_cons.mp member with rfl | later
      · exact absurd rfl same
      · rw [List.lookup_cons, beq_false_of_ne same]
        exact ih (by simpa only [bind_eq_ok, pure_eq_ok] using collected) field later

theorem decodeStruct_takes {window : Nat} {earlier : List Struct}
    (parts : TakesNested model nested bits kept) (formed : s.WellFormed window model earlier)
    (enums : ∀ e ∈ model.enums, e.WellFormed) :
    Takes (decodeStruct model window nested s) fun result taken =>
      ∃ record head tail, result.1 = .record record ∧
        taken = head ++ result.2.getD [] ++ tail ∧ (s.payloadField? = none → result.2 = none) ∧
        RecodesFields bits kept s record (s.fields.takeWhile (·.shape != .payload)) head ∧
        RecodesFields bits kept s record (s.fields.dropWhile (·.shape != .payload)) tail := by
  refine takes_after takes_check fun segments laid => ?_
  obtain ⟨whole, sound⟩ := layout_fields laid
  refine takes_bind (decodeSegments_takes_payload parts formed.fields (fun field member =>
    resolved_of_formed formed.fields enums member) sound whole) ?_
  rintro parsed taken ⟨head, tail, split, without, recodes⟩
  refine takes_after takes_check fun record collected => takes_pure ?_
  refine ⟨record, head, tail, rfl, by rw [List.append_nil, split], without, recodes record ?_⟩
  exact fun field member stored =>
    lookup_collected collected field (mem_storedFields_of_mem member stored)

/-- The decoders of the nested structures take what their values are written as. -/
theorem takesNested_meaning {window : Nat} (formed : model.WellFormed window)
    {structs front : List Struct} (place : model.structs.reverse = front ++ structs) :
    TakesNested model (meaningIn? (decodeStruct model window) structs)
      (meaningOr (fun _ => []) structBits structs)
      (meaningOr (fun _ => []) structKept structs) := by
  induction structs generalizing front with
  | nil => nofun
  | cons s earlier ih =>
    have parts := @ih (front ++ [s]) (by simp [place])
    have split : model.structs = earlier.reverse ++ s :: front.reverse := by
      rw [← List.reverse_reverse model.structs, place]
      simp
    intro id listed decoder found
    simp only [meaningIn?, meaningOr] at found ⊢
    by_cases same : (s.id == id) = true
    · rw [if_pos same] at found
      cases found
      simp only [if_pos same]
      obtain rfl := beq_iff_eq.mp same
      have header := payloadField?_substruct formed (by simp [split]) listed
      refine (decodeStruct_takes parts (formed.structs earlier.reverse s front.reverse split)
        formed.enums).mono ?_
      rintro ⟨_, payload⟩ taken ⟨record, head, tail, rfl, rfl, without, first, second⟩
      have whole := first.append second
      rw [List.takeWhile_append_dropWhile] at whole
      obtain rfl := without header
      rwa [Option.getD_none, List.append_nil]
    · rw [if_neg same] at found
      simp only [if_neg same]
      exact parts id listed decoder found

end Codec

open Format in
/-- What is read of a buffer are the bytes of the fields before the payload, the payload, and those
of the fields after it. -/
theorem Model.decode_takes {model : Model} {window : Nat} {s : Struct} {buffer : Bytes}
    {decoded : Decoded} (formed : model.WellFormed window) (member : s ∈ model.structs)
    (read : model.decode window s.id buffer = .ok (.ok decoded)) :
    ∃ record head tail, decoded.packet = .record record ∧
      decoded.size = (head ++ decoded.payload.getD [] ++ tail).length ∧
      buffer.take decoded.size = head ++ decoded.payload.getD [] ++ tail ∧
      Recodes (model.wireBits s.id decoded.packet) (model.keptBits s.id decoded.packet)
        (head ++ tail) ∧
      (8 * (head ++ tail).length = (model.wireBits s.id decoded.packet).length →
        8 * head.length = ((s.fields.takeWhile (·.shape != .payload)).flatMap
          (fieldBits model.wireBits s record)).length) := by
  obtain ⟨earlier, later, place⟩ := List.append_of_mem member
  have split : model.structs.reverse = (later.reverse ++ [s]) ++ earlier.reverse := by simp [place]
  have takes := Codec.decodeStruct_takes (Codec.takesNested_meaning formed split)
    (formed.structs earlier s later place) formed.enums
  simp only [Model.decode, Model.decoder, formed.meaning_self place, bind_eq_ok, pure_eq_ok,
    Except.ok.injEq, exists_eq_left'] at read
  obtain ⟨⟨result, reader⟩, run, finish⟩ := read
  rcases result with _ | ⟨packet, payload⟩
  · cases finish
  · cases finish
    obtain ⟨taken, others, rfl, rfl, record, head, tail, rfl, rfl, -, first, second⟩ :=
      takes [] buffer _ _ run
    have total := first.append second
    rw [List.takeWhile_append_dropWhile] at total
    have same : (s.fields.takeWhile (·.shape != .payload)).map (fieldBits model.wireBits s record) =
        (s.fields.takeWhile (·.shape != .payload)).map
          (fieldBits (meaningOr (fun _ => []) structBits earlier.reverse) s record) :=
      List.map_congr_left fun field inside =>
        formed.fieldBits_wireBits place (List.takeWhile_subset _ inside) record
    rw [Model.wireBits, Model.keptBits, formed.meaningOr_self place, formed.meaningOr_self place]
    refine ⟨record, head, tail, rfl, rfl, List.take_left' rfl, total, fun filled => ?_⟩
    -- neither part takes more than its bits, so if both together take all, each does
    have bound := first.bound
    have moreBound := second.bound
    rw [structBits, ← List.takeWhile_append_dropWhile (p := (·.shape != .payload)) (l := s.fields),
      List.flatMap_append, List.length_append, List.length_append] at filled
    rw [List.flatMap_def, same, ← List.flatMap_def]
    omega

open Format in
/-- If writing what was read gives as many bytes as were read for it, these are the bytes read, the
payload taken out of them, with zeros for what values do not hold: padding, parity, and the upper
half of 32-bit descriptors. -/
theorem encodeToBytes_decode {document : Document} {window : Nat} {source : String}
    {model : Model} {s : Struct} {buffer bytes : Bytes} {decoded : Decoded}
    (accepted : analyze document window source = .ok model) (member : s ∈ model.structs)
    (read : model.decode window s.id buffer = .ok (.ok decoded))
    (encoded : model.encodeToBytes window s.id decoded.packet = .ok (.ok bytes))
    (whole : decoded.size = bytes.length + (decoded.payload.getD []).length) :
    ∃ record head tail, decoded.packet = .record record ∧
      buffer.take decoded.size = head ++ decoded.payload.getD [] ++ tail ∧
      8 * head.length = ((s.fields.takeWhile (·.shape != .payload)).flatMap
        (fieldBits model.wireBits s record)).length ∧
      bitsOfBytes bytes = List.zipWith (· && ·) (model.keptBits s.id decoded.packet)
        (bitsOfBytes (head ++ tail)) := by
  have formed : model.WellFormed window :=
    { coherent_of_analyze accepted with names := names_of_analyze accepted }
  obtain ⟨record, head, tail, packet, size, split, recodes, headed⟩ :=
    Model.decode_takes formed member read
  obtain ⟨bits, -⟩ := Model.encodeToBytes_bits formed encoded
  have filled : 8 * (head ++ tail).length = (model.wireBits s.id decoded.packet).length := by
    rw [← bits, length_bitsOfBytes]
    simp only [List.length_append] at size ⊢
    omega
  exact ⟨record, head, tail, packet, split, headed filled, bits.trans (recodes.same filled)⟩

/-- The sample packet with something in its padding and in the upper half of its 32-bit descriptor,
then its payload and one byte more. -/
def sampleBuffer : Bytes :=
  [0x00, 0x30, 0x21, 0x23, 0x45, 0x7f, 0xff, 0xfe, 0xaa, 0xbb, 0xcc, 0x00, 0x30, 0x02, 7, 8, 9]

def sampleDecoded : Decoded :=
  ((sampleModel.decode 32 sampleStruct.id sampleBuffer).toOption.bind Except.toOption).get
    (by decide +kernel)

theorem decode_sampleBuffer :
    sampleModel.decode 32 sampleStruct.id sampleBuffer = .ok (.ok sampleDecoded) :=
  eq_ok_of_toOption (Option.some_get _).symm

/-- Written again, the sample has zeros for these bytes. -/
theorem encodeToBytes_sampleBuffer :
    ∃ record head tail, sampleDecoded.packet = .record record ∧
      sampleBuffer.take 16 = head ++ [7, 8] ++ tail ∧
      8 * head.length = ((sampleStruct.fields.takeWhile (·.shape != .payload)).flatMap
        (Format.fieldBits sampleModel.wireBits sampleStruct record)).length ∧
      bitsOfBytes sampleBytes =
        List.zipWith (· && ·) (sampleModel.keptBits sampleStruct.id sampleDecoded.packet)
          (bitsOfBytes (head ++ tail)) := by
  have size : sampleDecoded.size = 16 := by decide +kernel
  have payload : sampleDecoded.payload = some [7, 8] := by decide +kernel
  have encoded : sampleModel.encodeToBytes 32 sampleStruct.id sampleDecoded.packet =
      .ok (.ok sampleBytes) := eq_ok_of_toOption (by decide +kernel)
  have written := encodeToBytes_decode analyze_sample sampleStruct_mem decode_sampleBuffer encoded
    (by rw [size, payload]; rfl)
  rwa [size, payload] at written

end PacketSpec
