import PacketSpec.Proofs.Codec.Progress
import PacketSpec.Proofs.Codec.Reencoding

/-!
How many elements are read of an array whose length a field tells. There are no more than bytes left
when the array begins, unless the elements are structures of which nothing more can be read: such
an element takes no input, and is read again and again.
-/
namespace PacketSpec

open Wire Decode

namespace Decode

variable {α β : Type} {element : Decode α} {reader after : Reader} {list : List α} {count : Nat}

theorem length_of_times (run : (times element count).run reader = .ok (.ok list, after)) :
    list.length = count := by
  induction count generalizing reader list with
  | zero =>
    cases run
    rfl
  | succ count ih =>
    obtain ⟨first, middle, -, run⟩ := run_bind_eq_ok.mp run
    obtain ⟨rest, others, rfl⟩ := run_return_eq_ok.mp run
    rw [List.length_cons, ih others]

/-- A step of the loop: the input has ended, or an element is read and the loop goes on. -/
theorem upTo_step (run : (upTo element (count + 1)).run reader = .ok (.ok list, after)) :
    (list = [] ∧ after = reader) ∨
    ∃ first middle rest, list = first :: rest ∧ 0 < reader.remaining ∧
      element.run reader = .ok (.ok first, middle) ∧
      (upTo element count).run middle = .ok (.ok rest, after) := by
  obtain ⟨available, _, left, run⟩ := run_bind_eq_ok.mp run
  cases left
  split at run
  · cases run
    exact .inl ⟨rfl, rfl⟩
  · next more =>
    obtain ⟨first, middle, one, run⟩ := run_bind_eq_ok.mp run
    obtain ⟨rest, others, rfl⟩ := run_return_eq_ok.mp run
    exact .inr ⟨first, middle, rest, rfl, Nat.pos_of_ne_zero (by simpa using more), one, others⟩

/-- Where an element takes nothing, no further one does. -/
theorem upTo_stays {a : α} (stays : element.run reader = .ok (.ok a, reader))
    (run : (upTo element count).run reader = .ok (.ok list, after)) : after = reader := by
  induction count generalizing list with
  | zero =>
    cases run
    rfl
  | succ count ih =>
    rcases upTo_step run with ⟨-, same⟩ | ⟨first, middle, rest, -, -, one, others⟩
    · exact same
    · rw [stays] at one
      cases one
      exact ih others

theorem offset_lt_of_ne (same : after.bytes = reader.bytes) (forward : reader.offset ≤ after.offset)
    (moved : after ≠ reader) : reader.offset < after.offset := by
  refine Nat.lt_of_le_of_ne forward fun equal => moved ?_
  cases after
  cases reader
  cases same
  cases equal
  rfl

/-- Elements are read until there is no input, so there are no more than bytes, unless reading ends
where there is input of which an element takes nothing. -/
theorem upTo_bounded (moves : Moves false element)
    (run : (upTo element count).run reader = .ok (.ok list, after)) :
    list.length ≤ reader.remaining ∨
      0 < after.remaining ∧ ∃ a, element.run after = .ok (.ok a, after) := by
  induction count generalizing reader list with
  | zero =>
    cases run
    exact .inl (Nat.zero_le _)
  | succ count ih =>
    rcases upTo_step run with ⟨rfl, -⟩ | ⟨first, middle, rest, rfl, available, one, others⟩
    · exact .inl (Nat.zero_le _)
    obtain ⟨same, forward, -⟩ := moves reader first middle one
    by_cases stays : middle = reader
    · subst stays
      obtain rfl := upTo_stays one others
      exact .inr ⟨available, first, one⟩
    · have moved := offset_lt_of_ne same forward stays
      rcases ih others with bounded | stalled
      · left
        rw [Reader.remaining, same] at bounded
        rw [Reader.remaining] at available ⊢
        rw [List.length_cons]
        omega
      · exact .inr stalled

end Decode

namespace Codec

variable {model : Model} {nested : String → Option Decoder} {sure : String → Bool} {s : Struct}
  {record : Record} {field : Field} {value : Value} {reader after : Reader}

/-- An array of structures has ended where there is input of which an element takes nothing. -/
def Stalls (nested : String → Option Decoder) (field : Field) (after : Reader) : Prop :=
  ∃ typeId decoder result, field.shape = .struct typeId ∧ nested typeId = some decoder ∧
    0 < after.remaining ∧ decoder.run after = .ok (.ok result, after)

theorem stalls_of_element {element : Value} (structured : field.shape.isStruct = true)
    (available : 0 < after.remaining)
    (stays : (decodeElement model nested field).run after = .ok (.ok element, after)) :
    Stalls nested field after := by
  obtain ⟨typeId, shape⟩ : ∃ typeId, field.shape = .struct typeId := by
    cases shape : field.shape <;> simp_all [Shape.isStruct]
  simp only [decodeElement, shape] at stays
  split at stays
  · next decoder found =>
    rw [← bind_pure_comp, run_return_eq_ok] at stays
    obtain ⟨result, stays, -⟩ := stays
    exact ⟨typeId, decoder, result, shape, found, available, stays⟩
  · cases stays

theorem decodeElements_bounded {index : Nat}
    (parts : ∀ typeId decoder, nested typeId = some decoder → Moves (sure typeId) decoder)
    (formed : field.WellFormed) (counted : field.repetition = .fieldRef index)
    (run : (decodeElements model nested s record field).run reader = .ok (.ok value, after)) :
    value.count ≤ reader.remaining ∨ Stalls nested field after := by
  simp only [decodeElements, counted] at run
  obtain ⟨count, middle, checked, rest⟩ := run_bind_eq_ok.mp run
  obtain ⟨-, rfl⟩ := check_run_eq_ok.mp checked
  split at rest
  · obtain ⟨buffer, read, rfl⟩ := run_return_eq_ok.mp rest
    cases read
    left
    show ((middle.bytes.drop middle.offset).take (min count middle.remaining)).length ≤ _
    rw [List.length_take]
    omega
  · split at rest
    · next structured =>
      obtain ⟨list, read, rfl⟩ := run_return_eq_ok.mp rest
      have element := (@decodeElement_moves model _ _ field parts formed).unsure
      refine (upTo_bounded element read).imp id ?_
      rintro ⟨available, a, stays⟩
      exact stalls_of_element structured available stays
    · obtain ⟨available, _, left, rest⟩ := run_bind_eq_ok.mp rest
      cases left
      obtain ⟨list, read, rfl⟩ := run_return_eq_ok.mp rest
      left
      show list.length ≤ _
      rw [length_of_times read]
      exact Nat.le_trans (Nat.min_le_right _ _) (Nat.div_le_self _ _)

theorem decodeStored_bounded {index : Nat}
    (parts : ∀ typeId decoder, nested typeId = some decoder → Moves (sure typeId) decoder)
    (formed : field.WellFormed) (counted : field.repetition = .fieldRef index)
    (run : (decodeStored model nested s record field).run reader = .ok (.ok value, after)) :
    value.count ≤ reader.remaining ∨ Stalls nested field after := by
  have admits := formed.shape
  cases shape : field.shape with
  | scalar signed =>
    simp only [decodeStored, shape] at run
    split at run
    · next seq => simp [(formed.seq seq).2] at counted
    · exact decodeElements_bounded parts formed counted run
  | rational | struct | enum =>
    simp only [decodeStored, shape] at run
    exact decodeElements_bounded parts formed counted run
  | bytes | string | descriptor => simp [shape, Shape.Admits, counted] at admits
  | _ =>
    simp only [decodeStored, shape] at run
    cases run

theorem foldlM_congr {α β : Type} {items : List α} {step other : β → α → Decode β}
    (same : ∀ item ∈ items, ∀ b, step b item = other b item) (start : β) :
    items.foldlM step start = items.foldlM other start := by
  induction items generalizing start with
  | nil => rfl
  | cons item rest ih =>
    rw [List.foldlM_cons, List.foldlM_cons, same item (.head _)]
    exact bind_congr fun b => ih (fun next member => same next (.tail _ member)) b

section Congruence

variable {other : String → Option Decoder} {parsed : Parsed}

theorem decodeStored_congr
    (same : ∀ typeId, field.shape = .struct typeId → nested typeId = other typeId) :
    decodeStored model nested s record field = decodeStored model other s record field := by
  have element : decodeElement model nested field = decodeElement model other field := by
    cases shape : field.shape with
    | struct typeId => simp only [decodeElement, shape, same typeId shape]
    | scalar signed => cases signed <;> simp only [decodeElement, shape]
    | _ => simp only [decodeElement, shape]
  simp only [decodeStored, decodeElements, element]

theorem decodeSegment_congr {segment : Segment} (same : ∀ field ∈ segment.fields, ∀ typeId,
      field.shape = .struct typeId → nested typeId = other typeId) :
    decodeSegment model nested s parsed segment = decodeSegment model other s parsed segment := by
  cases segment with
  | chunk shared => rfl
  | aligned field => rw [decodeSegment, decodeSegment, decodeStored_congr (same field (.head _))]

/-- A structure is read in the same way with decoders that are the same for its fields. -/
theorem decodeStruct_congr {window : Nat} (same : ∀ field ∈ s.fields, ∀ typeId,
      field.shape = .struct typeId → nested typeId = other typeId) :
    decodeStruct model window nested s = decodeStruct model window other s := by
  unfold decodeStruct
  cases laid : layout window s with
  | error fault => rfl
  | ok segments =>
    obtain ⟨whole, -⟩ := layout_fields laid
    have folded : segments.foldlM (decodeSegment model nested s) {} =
        segments.foldlM (decodeSegment model other s) {} :=
      foldlM_congr (fun segment member parsed => decodeSegment_congr fun field inside =>
        same field (whole ▸ List.mem_flatMap.mpr ⟨segment, member, inside⟩)) {}
    show segments.foldlM (decodeSegment model nested s) {} >>= _ =
      segments.foldlM (decodeSegment model other s) {} >>= _
    rw [folded]

end Congruence

def Keeps (id : String) (parsed : Parsed) (step : Decode Parsed) : Prop :=
  ∀ reader last after, step.run reader = .ok (.ok last, after) →
    last.record.lookup id = parsed.record.lookup id

section Keeping

variable {id : String} {parsed : Parsed}

theorem keeps_pure {last : Parsed} (same : last.record.lookup id = parsed.record.lookup id) :
    Keeps id parsed (pure last) := by
  intro reader last' after run
  cases run
  exact same

theorem keeps_after {α : Type} {step : Decode α} {next : α → Decode Parsed}
    (continues : ∀ a, Keeps id parsed (next a)) : Keeps id parsed (step >>= next) := by
  intro reader last after run
  obtain ⟨a, middle, -, rest⟩ := run_bind_eq_ok.mp run
  exact continues a middle last after rest

theorem keeps_foldlM {α : Type} {items : List α} {step : Parsed → α → Decode Parsed}
    (each : ∀ item ∈ items, ∀ parsed, Keeps id parsed (step parsed item)) :
    Keeps id parsed (items.foldlM step parsed) := by
  induction items generalizing parsed with
  | nil => exact keeps_pure rfl
  | cons item rest ih =>
    intro reader last after run
    rw [List.foldlM_cons] at run
    obtain ⟨next, middle, first, others⟩ := run_bind_eq_ok.mp run
    rw [ih (fun other member => each other (.tail _ member)) middle last after others,
      each item (.head _) parsed reader next middle first]

theorem decodePacked_keeps {word : Nat} {packed : Packed Field} (other : packed.symbol.id ≠ id) :
    Keeps id parsed (decodePacked model s word parsed packed) := by
  unfold decodePacked
  simp only
  split
  · exact keeps_after fun _ => keeps_pure rfl
  · exact keeps_after fun e => keeps_pure (Parsed.lookup_store_other other)
  · exact keeps_pure (Parsed.lookup_store_other other)

theorem decodeImplied_keeps : Keeps id parsed (decodeImplied s parsed field) := by
  unfold decodeImplied
  split
  · split
    · exact keeps_after fun _ => keeps_after fun _ => keeps_after fun _ => keeps_pure rfl
    · exact keeps_after fun _ => keeps_after fun _ => keeps_pure rfl
  · exact keeps_after fun _ => keeps_pure rfl
  · exact keeps_after fun _ => keeps_pure rfl
  · exact keeps_after fun _ => keeps_after fun _ => keeps_pure rfl
  · exact keeps_after fun _ => keeps_after fun _ => keeps_pure rfl
  · intro reader last after run
    cases run

theorem decodeSegment_keeps {segment : Segment} (other : ∀ field ∈ segment.fields, field.id ≠ id) :
    Keeps id parsed (decodeSegment model nested s parsed segment) := by
  cases segment with
  | chunk shared =>
    exact keeps_after fun word => keeps_foldlM fun packed member parsed =>
      decodePacked_keeps (other packed.symbol (List.mem_map_of_mem member))
  | aligned field =>
    rw [decodeSegment]
    split
    · exact keeps_after fun value => keeps_pure (Parsed.lookup_store_other (other field (.head _)))
    · exact decodeImplied_keeps

end Keeping

/-- Reading a structure reads each of its stored fields after those before it. -/
theorem decodeStruct_reads_field {window : Nat} {payload : Option Bytes} {before later : List Field}
    (ids : (s.fields.map Field.id).Nodup) (place : s.fields = before ++ field :: later)
    (wide : field.isPacked = false) (stored : field.isStored = true)
    (run : (decodeStruct model window nested s).run reader = .ok (.ok (value, payload), after)) :
    ∃ record front back parsed began elements ended, value = .record record ∧
      record.lookup field.id = some elements ∧
      layout window s = .ok (front ++ .aligned field :: back) ∧
      (front.foldlM (decodeSegment model nested s) {}).run reader = .ok (.ok parsed, began) ∧
      (decodeStored model nested s parsed.record field).run began = .ok (.ok elements, ended) := by
  obtain ⟨segments, _, checked, rest⟩ := run_bind_eq_ok.mp run
  obtain ⟨laid, rfl⟩ := check_run_eq_ok.mp checked
  obtain ⟨whole, sound⟩ := layout_fields laid
  obtain ⟨front, back, rfl, -, others⟩ := segments_split sound (whole.trans place) wide
  obtain ⟨last, _, folded, rest⟩ := run_bind_eq_ok.mp rest
  rw [List.foldlM_append] at folded
  obtain ⟨parsed, began, first, folded⟩ := run_bind_eq_ok.mp folded
  rw [List.foldlM_cons] at folded
  obtain ⟨next, ended, own, folded⟩ := run_bind_eq_ok.mp folded
  rw [decodeSegment, if_pos stored] at own
  obtain ⟨elements, reads, rfl⟩ := run_return_eq_ok.mp own
  obtain ⟨record, _, gathers, finish⟩ := run_bind_eq_ok.mp rest
  obtain ⟨collected, rfl⟩ := check_run_eq_ok.mp gathers
  cases finish
  refine ⟨record, front, back, parsed, began, elements, ended, rfl, ?_, laid, first, reads⟩
  rw [place, List.map_append, List.map_cons, List.nodup_append, List.nodup_cons] at ids
  have distinct (segment : Segment) (member : segment ∈ back) (other : Field)
      (inside : other ∈ segment.fields) : other.id ≠ field.id := by
    intro same
    have listed : other ∈ later := others ▸ List.mem_flatMap.mpr ⟨segment, member, inside⟩
    exact ids.2.1.1 (same ▸ List.mem_map_of_mem listed)
  rw [lookup_collected collected field (mem_storedFields_of_mem (by simp [place]) stored),
    keeps_foldlM (fun segment member _ => decodeSegment_keeps (distinct segment member)) _ _ _
      folded,
    Parsed.lookup_store_self]

end Codec

namespace Model

variable {model : Model} {window : Nat}

def decoders (model : Model) (window : Nat) : String → Option Codec.Decoder :=
  meaningIn? (Codec.decodeStruct model window) model.structs.reverse

/-- A structure is read with the decoders of the model. -/
theorem WellFormed.decoder_eq (formed : model.WellFormed window) {s : Struct}
    (member : s ∈ model.structs) :
    model.decoder window s.id =
      .ok (Codec.decodeStruct model window (model.decoders window) s) := by
  obtain ⟨earlier, later, place⟩ := List.append_of_mem member
  have sound := formed.structs earlier s later place
  rw [Model.decoder, formed.meaning_self place, Codec.decodeStruct_congr]
  intro field inside typeId shape
  obtain ⟨-, nested, early, rfl, -⟩ := sound.fields.structs field inside typeId shape
  rw [decoders, meaningIn?_eq_meaningOr, meaningIn?_eq_meaningOr,
    formed.meaningOr_earlier place _ _ early]

inductive Reads (model : Model) (window : Nat) (id : String) : Reader → Value → Prop
  | packet {buffer : Bytes} {decoded : Decoded}
      (read : model.decode window id buffer = .ok (.ok decoded)) :
      Reads model window id ⟨buffer, 0⟩ decoded.packet
  | nested {reader after : Reader} {value : Value}
      (read : (model.decodeFrom window id).run reader = .ok (.ok value, after)) :
      Reads model window id reader value

theorem Reads.run {id : String} {decoder : Codec.Decoder} {reader : Reader} {value : Value}
    (read : model.Reads window id reader value) (known : model.decoder window id = .ok decoder) :
    ∃ payload after, decoder.run reader = .ok (.ok (value, payload), after) := by
  cases read with
  | packet read =>
    simp only [Model.decode, known, bind_eq_ok, pure_eq_ok, Except.ok.injEq, exists_eq_left']
      at read
    obtain ⟨⟨result, after⟩, run, finish⟩ := read
    rcases result with error | ⟨packet, payload⟩
    · cases finish
    · cases finish
      exact ⟨payload, after, run⟩
  | nested read =>
    obtain ⟨other, middle, checked, rest⟩ := run_bind_eq_ok.mp read
    obtain ⟨same, rfl⟩ := check_run_eq_ok.mp checked
    rw [known] at same
    cases same
    rw [← bind_pure_comp, run_return_eq_ok] at rest
    obtain ⟨⟨value, payload⟩, run, rfl⟩ := rest
    exact ⟨payload, _, run⟩

/-- The state in which a field of a structure that shares no chunk is read. -/
def ReadsUpTo (model : Model) (window : Nat) (s : Struct) (field : Field) (reader : Reader)
    (parsed : Codec.Parsed) (began : Reader) : Prop :=
  ∃ front back, Codec.layout window s = .ok (front ++ .aligned field :: back) ∧
    (front.foldlM (Codec.decodeSegment model (model.decoders window) s) {}).run reader =
      .ok (.ok parsed, began)

end Model

/-- An array whose length a field tells has no more elements than bytes are left when it begins,
unless it has structures and ends where there is input of which such a structure takes nothing. It
does not do so if the structures have a part of a single byte or pass over bytes. -/
theorem counted_elements_bounded {document : Document} {window : Nat} {source : String}
    {model : Model} {s : Struct} {field : Field} {index : Nat} {reader : Reader} {value : Value}
    (accepted : analyze document window source = .ok model) (member : s ∈ model.structs)
    (inside : field ∈ s.fields) (stored : field.isStored = true)
    (counted : field.repetition = .fieldRef index)
    (read : model.Reads window s.id reader value) :
    ∃ record elements parsed began ended, value = .record record ∧
      record.lookup field.id = some elements ∧
      model.ReadsUpTo window s field reader parsed began ∧
      (Codec.decodeStored model (model.decoders window) s parsed.record field).run began =
        .ok (.ok elements, ended) ∧
      (elements.count ≤ began.remaining ∨
        ∃ typeId, field.shape = .struct typeId ∧ model.advances window typeId = false ∧
          0 < ended.remaining ∧
          ∃ element, (model.decodeFrom window typeId).run ended = .ok (.ok element, ended)) := by
  have formed : model.WellFormed window :=
    { coherent_of_analyze accepted with names := names_of_analyze accepted }
  obtain ⟨earlier, later, among⟩ := List.append_of_mem member
  have sound := formed.structs earlier s later among
  obtain ⟨before, behind, place⟩ := List.append_of_mem inside
  have wide : field.isPacked = false := by
    cases packed : field.isPacked with
    | false => rfl
    | true => simp [((sound.fields.each field inside).packed packed).2.1] at counted
  obtain ⟨payload, after, run⟩ := read.run (formed.decoder_eq member)
  obtain ⟨record, front, back, parsed, began, elements, ended, rfl, found, laid, first, reads⟩ :=
    Codec.decodeStruct_reads_field sound.fields.ids place wide stored run
  refine ⟨record, elements, parsed, began, ended, rfl, found, ⟨front, back, laid, first⟩, reads, ?_⟩
  have parts := Codec.moves_meaning formed (List.nil_append model.structs.reverse).symm
  rcases Codec.decodeStored_bounded parts (sound.fields.each field inside) counted reads with
    bounded | ⟨typeId, decoder, result, shape, known, available, stays⟩
  · exact .inl bounded
  · refine .inr ⟨typeId, shape, ?_, available, result.1, ?_⟩
    · cases sure : model.advances window typeId with
      | false => rfl
      | true =>
        have moved := (parts typeId decoder known ended result ended stays).2.2 sure available
        exact absurd moved (Nat.lt_irrefl _)
    · exact Model.decodeFrom_of_run (Model.meaning_eq_ok.mpr known) stays

/-- The entries of the sample start with a byte of their own. -/
theorem sample_entries_bounded :
    sampleModel.decode 32 "Catalog" sampleBuffer = .ok (.ok sampleDecoded) ∧
    sampleModel.advances 32 "Entry" = true ∧
    ∃ record elements parsed began, sampleDecoded.packet = .record record ∧
      record.lookup "entries" = some elements ∧
      sampleModel.ReadsUpTo 32 sampleStruct
        ⟨"entries", .struct "Entry", 24, .fieldRef 2, none, false⟩ ⟨sampleBuffer, 0⟩ parsed began ∧
      elements.count ≤ began.remaining := by
  have advances : sampleModel.advances 32 "Entry" = true := by decide
  obtain ⟨record, elements, parsed, began, ended, packet, found, reads, -, bounded⟩ :=
    @counted_elements_bounded _ _ _ _ _ ⟨"entries", .struct "Entry", 24, .fieldRef 2, none, false⟩ 2
      _ _ analyze_sample sampleStruct_mem (by decide) (by decide) rfl (.packet decode_sampleBuffer)
  refine ⟨decode_sampleBuffer, advances, record, elements, parsed, began, packet, found, reads, ?_⟩
  rcases bounded with bounded | ⟨typeId, shape, stuck, -⟩
  · exact bounded
  · cases shape
    rw [advances] at stuck
    cases stuck

def rosterDocument : Document where
  ranges := [⟨"'0x0030'", "#roster"⟩]
  structs := [
    ("0x0030", [
      ⟨"u(16)", "roster_descriptor", "'0x0030'"⟩,
      ⟨"u(8)", "entry_count", ""⟩,
      ⟨"[=entry_count=]*u(16)", "entries", "struct\x7bEntry\x7d"⟩]),
    ("Entry", [⟨"u(16)", "gain", ""⟩])]

def rosterStruct : Struct where
  key := "0x0030"
  id := "Roster"
  kind := "roster"
  role := .packet
  fields := [
    ⟨"roster_descriptor", .descriptor, 16, .none, some 0x30, false⟩,
    ⟨"entry_count", .scalar false, 8, .none, none, false⟩,
    ⟨"entries", .struct "Entry", 16, .fieldRef 1, none, false⟩]
  sizeBits := 24
  descriptor := some 0x30

def rosterModel : Model where
  source := "roster"
  structs := [
    { key := "Entry", id := "Entry", kind := "entry", role := .nested
      fields := [⟨"gain", .scalar false, 16, .none, none, false⟩]
      sizeBits := 16, descriptor := none },
    rosterStruct]
  descriptors := ⟨[("roster", 0x30)]⟩
  substructs := ["Entry"]

/-- One byte is left when the array begins, but it has three elements. -/
theorem roster_entries_unbounded :
    analyze rosterDocument 32 "roster" = .ok rosterModel ∧
    rosterModel.decode 32 "Roster" [0, 0x30, 3, 0x99] = .ok (.ok {
      packet := .record [
        ("entry_count", .unsigned 3),
        ("entries", .list (List.replicate 3 (.record [("gain", .unsigned 0)])))]
      payload := none
      size := 3 }) ∧
    ∃ parsed began, rosterModel.ReadsUpTo 32 rosterStruct
        ⟨"entries", .struct "Entry", 16, .fieldRef 1, none, false⟩ ⟨[0, 0x30, 3, 0x99], 0⟩ parsed
        began ∧
      began.remaining = 1 := by
  have opening : (((rosterStruct.fields.take 2).map Codec.Segment.aligned).foldlM
      (Codec.decodeSegment rosterModel (rosterModel.decoders 32) rosterStruct) {}).run
        ⟨[0, 0x30, 3, 0x99], 0⟩ =
      .ok (.ok ⟨[("entry_count", .unsigned 3)], none⟩, ⟨[0, 0x30, 3, 0x99], 3⟩) := by
    set_option maxRecDepth 1000 in
    rfl
  exact ⟨ok_of_toOption (by decide +kernel), rfl, _, _, ⟨_, [], rfl, opening⟩, rfl⟩

end PacketSpec
