import PacketSpec.Proofs.ArrayBounds

/-!
What has been stored when a field is read. The fields before it are there, and those that can be
counts hold numbers of their width, so the count of an array is always known.
-/
namespace PacketSpec

open Wire Decode

theorem Decode.unsigned_lt (size : Nat) (reader : Reader) :
    (Reader.unsigned size reader).1 < 1 <<< (8 * size) := by
  rw [unsigned_run]
  unfold Reader.take?
  split
  · next enough =>
    have bound := ofBigEndian_lt ((reader.bytes.drop reader.offset).take size)
    have sized : ((reader.bytes.drop reader.offset).take size).length = size := by
      rw [List.length_take, List.length_drop]
      exact Nat.min_eq_left enough
    rwa [sized] at bound
  · rw [Nat.one_shiftLeft]
    exact Nat.two_pow_pos _

def Field.largest (count : Field) : Nat := count.fixed.getD (1 <<< count.width - 1)

namespace Codec

variable {model : Model} {nested : String → Option Decoder} {s : Struct} {record : Record}
  {field : Field} {value : Value} {parsed last : Parsed} {reader after : Reader}

/-- A value that a field can be read as: a number of its width if the field can be a count. -/
def Countable (field : Field) (value : Value) : Prop :=
  field.IsCount → ∃ n, value = .unsigned n ∧ n < 1 <<< field.width

def Held (parsed : Parsed) (field : Field) : Prop :=
  field.isStored = true → ∃ value, parsed.record.lookup field.id = some value ∧
    Countable field value

theorem held_store (countable : Countable field value) : Held (parsed.store field value) field :=
  fun _ => ⟨value, Parsed.lookup_store_self, countable⟩

theorem Held.keep (held : Held parsed field)
    (same : last.record.lookup field.id = parsed.record.lookup field.id) : Held last field := by
  intro stored
  rw [same]
  exact held stored

theorem decodePacked_held {word : Nat} {packed : Packed Field}
    (width : packed.width = packed.symbol.width)
    (run : (decodePacked model s word parsed packed).run reader = .ok (.ok last, after)) :
    Held last packed.symbol := by
  simp only [decodePacked] at run
  split at run
  · next expected fixed =>
    intro stored
    simp [Field.isStored, fixed] at stored
  · next typeId free shape =>
    obtain ⟨e, -, rfl⟩ := run_return_eq_ok.mp run
    apply held_store
    rintro ⟨number | number, -⟩ <;> simp [shape] at number
  · cases run
    apply held_store
    intro counts
    refine ⟨_, rfl, ?_⟩
    rw [width, Nat.one_shiftLeft]
    exact Nat.mod_lt _ (Nat.two_pow_pos _)

/-- What a step stores stays while others with other names follow. -/
theorem held_foldlM {α : Type} {items : List α} {step : Parsed → α → Decode Parsed}
    {fields : α → List Field}
    (each : ∀ item ∈ items, ((fields item).map Field.id).Nodup → ∀ parsed reader last after,
      (step parsed item).run reader = .ok (.ok last, after) →
        ∀ field ∈ fields item, Held last field)
    (keeps : ∀ item ∈ items, ∀ parsed id, (∀ field ∈ fields item, field.id ≠ id) →
      Keeps id parsed (step parsed item))
    (ids : ((items.flatMap fields).map Field.id).Nodup)
    (run : (items.foldlM step parsed).run reader = .ok (.ok last, after)) :
    ∀ field ∈ items.flatMap fields, Held last field := by
  induction items generalizing parsed reader with
  | nil => simp
  | cons item rest ih =>
    rw [List.foldlM_cons] at run
    obtain ⟨next, middle, first, others⟩ := run_bind_eq_ok.mp run
    rw [List.flatMap_cons, List.map_append, List.nodup_append] at ids
    intro field member
    rcases List.mem_append.mp (List.flatMap_cons ▸ member) with own | later
    · refine (each item (.head _) ids.1 parsed reader next middle first field own).keep ?_
      apply keeps_foldlM (fun other inside parsed =>
        keeps other (.tail _ inside) parsed field.id ?_) middle last after others
      intro sibling within same
      exact ids.2.2 _ (List.mem_map_of_mem own) _
        (List.mem_map_of_mem (List.mem_flatMap.mpr ⟨other, inside, within⟩)) same.symm
    · exact ih (fun other inside => each other (.tail _ inside))
        (fun other inside => keeps other (.tail _ inside)) ids.2.1 others field later

theorem decodeStored_countable (formed : field.WellFormed) (wide : field.isPacked = false)
    (run : (decodeStored model nested s record field).run reader = .ok (.ok value, after)) :
    Countable field value := by
  rintro ⟨number | narrow, single⟩
  · have whole := formed.whole wide (by simp [number, Shape.isScalar])
    have bound := unsigned_lt (field.width / 8) reader
    rw [whole] at bound
    have unsigned : (do return Value.unsigned (← read (Reader.unsigned (field.width / 8))) :
        Decode Value).run reader = .ok (.ok value, after) := by
      by_cases seq : field.seq = true <;>
        simpa [decodeStored, decodeElements, decodeElement, number, single, seq] using run
    obtain ⟨n, read, rfl⟩ := run_return_eq_ok.mp unsigned
    cases read
    exact ⟨_, rfl, bound⟩
  · have admits := formed.shape
    simp only [narrow, Shape.Admits] at admits
    simp [Field.isPacked, narrow] at wide
    omega

theorem decodeSegment_held {segment : Segment} (sound : segment.Sound)
    (formed : ∀ field ∈ segment.fields, field.WellFormed)
    (ids : (segment.fields.map Field.id).Nodup)
    (run : (decodeSegment model nested s parsed segment).run reader = .ok (.ok last, after)) :
    ∀ field ∈ segment.fields, Held last field := by
  cases segment with
  | chunk shared =>
    obtain ⟨fields, -, rfl, -, -⟩ := sound
    obtain ⟨word, middle, -, folded⟩ := run_bind_eq_ok.mp run
    have symbols := List.map_eq_flatMap (f := Packed.symbol)
      (l := BitWindow.place (totalWidth fields) (widthsOf fields))
    rw [Segment.fields, symbols] at ids ⊢
    refine held_foldlM ?_ ?_ ids folded
    · intro packed member _ parsed reader last after run field own
      rw [List.mem_singleton.mp own]
      exact decodePacked_held (BitWindow.place_widths _ _ packed member) run
    · intro packed member parsed id other
      exact decodePacked_keeps (other _ (.head _))
  | aligned field =>
    intro other own
    obtain rfl := List.mem_singleton.mp own
    rw [decodeSegment] at run
    split at run
    · obtain ⟨value, read, rfl⟩ := run_return_eq_ok.mp run
      exact held_store (decodeStored_countable (formed other own) sound read)
    · next implied =>
      intro stored
      exact absurd stored implied

/-- Every field of the segments that have been read is there. -/
theorem decodeSegments_held {segments : List Segment} (sound : ∀ segment ∈ segments, segment.Sound)
    (formed : ∀ field ∈ segments.flatMap Segment.fields, field.WellFormed)
    (ids : ((segments.flatMap Segment.fields).map Field.id).Nodup)
    (run : (segments.foldlM (decodeSegment model nested s) parsed).run reader =
      .ok (.ok last, after)) :
    ∀ field ∈ segments.flatMap Segment.fields, Held last field := by
  refine held_foldlM ?_ (fun segment _ parsed id => decodeSegment_keeps) ids run
  intro segment member distinct parsed reader last after run
  exact decodeSegment_held (sound segment member) (fun field inside => formed field
    (List.mem_flatMap.mpr ⟨segment, member, inside⟩)) distinct run

/-- The count of an array is known when the array is read, and is at most the largest number of its
field. -/
theorem count_held {earlier : List Struct} {before later : List Field} {index : Nat}
    (formed : WellFormedFields model earlier s.fields) (place : s.fields = before ++ field :: later)
    (repetition : field.repetition = .fieldRef index)
    (held : ∀ other ∈ before, Held parsed other) :
    ∃ count n, s.fields[index]? = some count ∧ parsed.record.countAt s index = .ok n ∧
      n ≤ count.largest := by
  obtain ⟨count, early, found, counts⟩ := formed.count_before place repetition
  refine ⟨count, ?_⟩
  unfold Record.countAt Field.largest
  rw [found]
  cases fixed : count.fixed with
  | some n => exact ⟨n, rfl, by simp [fixed], by simp⟩
  | none =>
    obtain ⟨_, stored, countable⟩ := held count early (counts.stored fixed)
    obtain ⟨n, rfl, small⟩ := countable counts
    refine ⟨n, rfl, ?_, Nat.le_sub_one_of_lt small⟩
    simp only [fixed, Record.get_eq_ok.mpr stored]
    rfl

section Before

variable {window : Nat} {earlier : List Struct} {front back : List Segment}
  (formed : WellFormedFields model earlier s.fields)
  (laid : layout window s = .ok (front ++ .aligned field :: back))

include laid

/-- The fields before and after one that is a segment of its own. -/
theorem layout_around :
    s.fields = front.flatMap Segment.fields ++ field :: back.flatMap Segment.fields := by
  obtain ⟨whole, -⟩ := layout_fields laid
  simp [← whole, Segment.fields]

variable (run : (front.foldlM (decodeSegment model nested s) {}).run reader =
  .ok (.ok parsed, after))

include formed run

theorem held_before : ∀ other ∈ front.flatMap Segment.fields, Held parsed other := by
  have place := layout_around laid
  obtain ⟨-, sound⟩ := layout_fields laid
  exact decodeSegments_held (fun segment inside => sound segment (by simp [inside]))
    (fun other inside => formed.each other (by simp [place, inside]))
    (formed.ids.sublist (by rw [place, List.map_append]; exact List.sublist_append_left _ _)) run

/-- When an array of a structure is read, its count is known. -/
theorem count_of_run {index : Nat} (repetition : field.repetition = .fieldRef index) :
    ∃ count, s.fields[index]? = some count ∧
      parsed.record.countAt s index = .ok (parsed.record.repeats s field) ∧
      parsed.record.repeats s field ≤ count.largest := by
  obtain ⟨count, n, found, counted, small⟩ :=
    count_held formed (layout_around laid) repetition (held_before formed laid run)
  rw [repeats_fieldRef repetition counted]
  exact ⟨count, found, counted, small⟩

end Before

end Codec

namespace Model

variable {model : Model} {window : Nat} {s : Struct} {field : Field} {reader began : Reader}
  {parsed : Codec.Parsed}

theorem ReadsUpTo.mem (reads : model.ReadsUpTo window s field reader parsed began) :
    field ∈ s.fields := by
  obtain ⟨front, back, laid, -⟩ := reads
  simp [Codec.layout_around laid]

theorem WellFormed.count_of_readsUpTo (formed : model.WellFormed window)
    (member : s ∈ model.structs) (reads : model.ReadsUpTo window s field reader parsed began)
    {index : Nat} (repetition : field.repetition = .fieldRef index) :
    ∃ count, s.fields[index]? = some count ∧
      parsed.record.countAt s index = .ok (parsed.record.repeats s field) ∧
      parsed.record.repeats s field ≤ count.largest := by
  obtain ⟨earlier, later, place⟩ := List.append_of_mem member
  obtain ⟨front, back, laid, run⟩ := reads
  exact Codec.count_of_run (formed.structs earlier s later place).fields laid run repetition

end Model

end PacketSpec
