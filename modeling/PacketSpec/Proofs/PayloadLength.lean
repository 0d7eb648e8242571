import PacketSpec.Proofs.SizeOverflow

/-!
How long the payload is that a reader gets. A constant number of elements is measured in bits, and
the sum is cut down to bytes; a number that a field tells is multiplied with the whole bytes of one
element. The two differ for elements that do not fill bytes.
-/
namespace PacketSpec

open Wire Decode

namespace Codec

variable {model : Model} {nested : String → Option Decoder} {s : Struct} {field : Field}
  {parsed last : Parsed} {reader began after : Reader} {window : Nat}
  {front back : List Segment}

/-- What is left to do when all segments have been read. -/
def collect (s : Struct) (parsed : Parsed) : Decoder := do
  let fields ← Decode.check (s.storedFields.mapM fun field =>
    return (field.id, ← parsed.record.get field.id))
  return (.record fields, parsed.payload)

/-- Reading goes on after a segment. -/
theorem decodeStruct_run_after {segment : Segment}
    (laid : layout window s = .ok (front ++ segment :: back))
    (before : (front.foldlM (decodeSegment model nested s) {}).run reader = .ok (.ok parsed, began))
    (own : (decodeSegment model nested s parsed segment).run began = .ok (.ok last, after)) :
    (decodeStruct model window nested s).run reader =
      (back.foldlM (decodeSegment model nested s) last >>= collect s).run after := by
  unfold decodeStruct
  rw [check_bind laid]
  show ((front ++ segment :: back).foldlM (decodeSegment model nested s) {} >>= collect s).run
    reader = _
  rw [List.foldlM_append, bind_assoc, run_bind, before]
  show ((segment :: back).foldlM (decodeSegment model nested s) parsed >>= collect s).run began = _
  rw [List.foldlM_cons, bind_assoc, run_bind, own]

/-- A structure has no other payload. -/
theorem payload_alone {earlier : List Struct} {body later : List Field}
    (formed : WellFormedFields model earlier s.fields)
    (place : s.fields = body ++ field :: later) (shape : field.shape = .payload) :
    (∀ other ∈ body, other.shape ≠ .payload) ∧ ∀ other ∈ later, other.shape ≠ .payload := by
  have one := formed.payload
  simp only [place, List.countP_append, List.countP_cons, shape, beq_self_eq_true, if_true] at one
  have unpaid {fields : List Field} (empty : fields.countP (·.shape == .payload) = 0) :
      ∀ other ∈ fields, other.shape ≠ .payload := by simpa using List.countP_eq_zero.mp empty
  exact ⟨unpaid (by omega), unpaid (by omega)⟩

/-- The payload that was read is the one that a structure is returned with. -/
theorem payload_of_run {earlier : List Struct} {bits kept : String → Value → List Bool}
    {result : Value × Option Bytes} {front back : List Segment} {payload head rest : Bytes}
    (parts : TakesNested model nested bits kept) (formed : s.WellFormed window model earlier)
    (enums : ∀ e ∈ model.enums, e.WellFormed)
    (laid : layout window s = .ok (front ++ .aligned field :: back))
    (shape : field.shape = .payload)
    (run : (back.foldlM (decodeSegment model nested s) { parsed with payload := some payload } >>=
      collect s).run ⟨head ++ rest, head.length⟩ = .ok (.ok result, after)) :
    result.2 = some payload := by
  obtain ⟨-, sound⟩ := layout_fields laid
  have place := layout_around laid
  obtain ⟨last, middle, others, collected⟩ := run_bind_eq_ok.mp run
  obtain ⟨taken, -, -, -, grows, -⟩ := decodeSegments_takes parts formed.fields
    (fun other member => resolved_of_formed formed.fields enums member)
    (fun segment member => sound segment (by simp [member]))
    (show s.fields = front.flatMap Segment.fields ++ [field] ++ back.flatMap Segment.fields ++ []
      by simp [place])
    (payload_alone formed.fields place shape).2 head rest last middle others
  obtain ⟨fields, _, -, finish⟩ := run_bind_eq_ok.mp collected
  cases finish
  exact grows.payload

end Codec

namespace Model

variable {model : Model} {window : Nat} {s : Struct} {field : Field} {parsed : Codec.Parsed}
  {began : Reader} {buffer : Bytes}

/-- The cursor is in the buffer when the payload is read. -/
theorem WellFormed.payload_cursor (formed : model.WellFormed window) (member : s ∈ model.structs)
    (shape : field.shape = .payload)
    (reads : model.ReadsUpTo window s field ⟨buffer, 0⟩ parsed began) :
    ∃ head rest, buffer = head ++ rest ∧ began = ⟨buffer, head.length⟩ := by
  obtain ⟨earlier, later, among⟩ := List.append_of_mem member
  have sound := (formed.structs earlier s later among).fields
  obtain ⟨front, back, laid, run⟩ := reads
  obtain ⟨-, sounds⟩ := Codec.layout_fields laid
  have place := Codec.layout_around laid
  obtain ⟨head, rest, split, moved, -⟩ := Codec.decodeSegments_takes
    (Codec.takesNested_meaning formed (List.nil_append model.structs.reverse).symm) sound
    (fun other inside => Codec.resolved_of_formed sound formed.enums inside)
    (fun segment inside => sounds segment (by simp [inside]))
    (show s.fields = [] ++ front.flatMap Codec.Segment.fields ++
      field :: back.flatMap Codec.Segment.fields by rw [place, List.nil_append])
    (Codec.payload_alone sound place shape).1 [] buffer parsed began run
  exact ⟨head, rest, split, moved⟩

theorem Made.payload_constant (made : model.Made) (member : s ∈ model.structs)
    (inside : field ∈ s.fields) (shape : field.shape = .payload) {n : Nat}
    (constant : field.repetition = .constant n) (record : Record) :
    s.payloadSizeFits record field = true := by
  have measured := ((made.structs s member).fields field inside).bits
    (by simp [shape, Shape.isParity])
  rw [constant, Repetition.constantCount, Nat.mul_comm] at measured
  simpa [Struct.payloadSizeFits, constant] using measured

/-- A payload whose size cannot be computed makes reading fail. -/
theorem WellFormed.payload_overflows (formed : model.WellFormed window) (made : model.Made)
    (member : s ∈ model.structs) (shape : field.shape = .payload)
    (reads : model.ReadsUpTo window s field ⟨buffer, 0⟩ parsed began)
    (large : s.payloadSizeFits parsed.record field = false) :
    model.decode window s.id buffer = .error .sizeOverflow := by
  have fails := formed.decodeStruct_failsAt made (List.nil_append model.structs.reverse).symm s
    (List.mem_reverse.mpr member) ⟨buffer, 0⟩ .sizeOverflow
  rw [Model.decode_eq_error (formed.decoder_eq member), fails]
  refine ⟨rfl, ?_⟩
  cases repetition : field.repetition with
  | none => simp [Struct.payloadSizeFits, repetition] at large
  | constant n => simp [made.payload_constant member reads.mem shape repetition] at large
  | fieldRef index =>
    obtain ⟨count, -, counted, -⟩ := formed.count_of_readsUpTo member reads repetition
    simp only [Struct.payloadSizeFits, repetition, decide_eq_false_iff_not, Nat.not_lt] at large
    exact .size reads (.inr shape) repetition counted large

/-- The state after the payload, from which the rest of the structure is read. -/
theorem WellFormed.payload_read (formed : model.WellFormed window) (member : s ∈ model.structs)
    (shape : field.shape = .payload) {head rest : Bytes}
    (reads : model.ReadsUpTo window s field ⟨head ++ rest, 0⟩ parsed ⟨head ++ rest, head.length⟩)
    (fits : s.payloadSizeFits parsed.record field = true) {payload : Bytes}
    (sized : payload = rest.take (s.payloadSize parsed.record field rest.length)) :
    (Codec.decodePayload s parsed.record field).run ⟨head ++ rest, head.length⟩ =
      .ok (.ok payload, ⟨head ++ rest, (head ++ payload).length⟩) ∧
    ∃ front back, Codec.layout window s = .ok (front ++ .aligned field :: back) ∧
      (front.foldlM (Codec.decodeSegment model (model.decoders window) s) {}).run
        ⟨head ++ rest, 0⟩ = .ok (.ok parsed, ⟨head ++ rest, head.length⟩) ∧
      (Codec.decodeStruct model window (model.decoders window) s).run ⟨head ++ rest, 0⟩ =
        (back.foldlM (Codec.decodeSegment model (model.decoders window) s)
          { parsed with payload := some payload } >>= Codec.collect s).run
          ⟨head ++ rest, (head ++ payload).length⟩ := by
  have run : (Codec.decodePayload s parsed.record field).run ⟨head ++ rest, head.length⟩ =
      .ok (.ok payload, ⟨head ++ rest, (head ++ payload).length⟩) := by
    rw [sized, List.length_append]
    refine Codec.decodePayload_run fits fun index repetition => ?_
    obtain ⟨_, -, counted, -⟩ := formed.count_of_readsUpTo member reads repetition
    exact counted
  obtain ⟨front, back, laid, before⟩ := reads
  refine ⟨run, front, back, laid, before, Codec.decodeStruct_run_after laid before ?_⟩
  rw [Codec.decodeSegment_payload shape]
  exact run_return_eq_ok.mpr ⟨payload, run, rfl⟩

/-- A packet is returned with the payload that was read. -/
theorem WellFormed.decoded_payload (formed : model.WellFormed window) (member : s ∈ model.structs)
    (shape : field.shape = .payload) {head rest payload : Bytes} {front back : List Codec.Segment}
    (laid : Codec.layout window s = .ok (front ++ .aligned field :: back))
    (sized : ∃ size, payload = rest.take size)
    (run : (Codec.decodeStruct model window (model.decoders window) s).run ⟨head ++ rest, 0⟩ =
      (back.foldlM (Codec.decodeSegment model (model.decoders window) s)
        { parsed with payload := some payload } >>= Codec.collect s).run
        ⟨head ++ rest, (head ++ payload).length⟩)
    {decoded : Decoded} (read : model.decode window s.id (head ++ rest) = .ok (.ok decoded)) :
    decoded.payload = some payload := by
  obtain ⟨earlier, later, among⟩ := List.append_of_mem member
  have parts := Codec.takesNested_meaning formed (List.nil_append model.structs.reverse).symm
  simp only [Model.decode, formed.decoder_eq member, bind_eq_ok, pure_eq_ok, Except.ok.injEq,
    exists_eq_left', run] at read
  obtain ⟨⟨result, after⟩, run, finish⟩ := read
  rcases result with error | ⟨packet, given⟩
  · cases finish
  · cases finish
    obtain ⟨size, rfl⟩ := sized
    have split : head ++ rest = (head ++ rest.take size) ++ rest.drop size := by simp
    rw [split] at run
    exact Codec.payload_of_run parts (formed.structs earlier s later among) formed.enums laid shape
      run

/-- Where nothing follows the payload, a packet is returned. -/
theorem WellFormed.decode_payload_last (formed : model.WellFormed window)
    (member : s ∈ model.structs) (shape : field.shape = .payload) {head rest payload : Bytes}
    {front back : List Codec.Segment} {started began : Reader}
    (laid : Codec.layout window s = .ok (front ++ .aligned field :: back))
    (before : (front.foldlM (Codec.decodeSegment model (model.decoders window) s) {}).run started =
      .ok (.ok parsed, began))
    (run : (Codec.decodeStruct model window (model.decoders window) s).run ⟨head ++ rest, 0⟩ =
      (back.foldlM (Codec.decodeSegment model (model.decoders window) s)
        { parsed with payload := some payload } >>= Codec.collect s).run
        ⟨head ++ rest, (head ++ payload).length⟩)
    (last : s.fields.getLast? = some field) :
    ∃ packet, model.decode window s.id (head ++ rest) =
      .ok (.ok ⟨packet, some payload, (head ++ payload).length⟩) := by
  obtain ⟨earlier, later, among⟩ := List.append_of_mem member
  have sound := (formed.structs earlier s later among).fields
  obtain ⟨-, sounds⟩ := Codec.layout_fields laid
  have place := Codec.layout_around laid
  have ended : back = [] := by
    rcases back with _ | ⟨segment, others⟩
    · rfl
    · have nonempty := (sounds segment (by simp)).fields_ne_nil
      have final : field ∈ (segment :: others).flatMap Codec.Segment.fields := by
        rw [place, List.getLast?_append_cons,
          List.getLast?_cons_of_ne_nil (by simp [nonempty])] at last
        exact List.mem_of_getLast? last
      exact absurd shape ((Codec.payload_alone sound place shape).2 field final)
  have held (other : Field) (inside : other ∈ s.fields) :
      Codec.Held { parsed with payload := some payload } other := by
    rw [place, ended, List.mem_append] at inside
    rcases inside with early | own
    · exact Codec.held_before sound laid before other early
    · intro stored
      simp [List.mem_singleton.mp own, Field.isStored, shape] at stored
  obtain ⟨fields, collected⟩ := Codec.collect_held held
  rw [ended, List.foldlM_nil, pure_bind, Codec.collect, check_bind collected] at run
  exact ⟨.record fields, Model.decode_of_run (formed.decoder_eq member) run⟩

end Model

/-- Elements that are cut down to bytes one by one lose nothing if their last bits together are less
than a byte. -/
theorem mul_div_eq_iff (count width : Nat) :
    count * (width / 8) = count * width / 8 ↔ count * (width % 8) < 8 := by
  have parts : count * width = 8 * (count * (width / 8)) + count * (width % 8) := by
    rw [Nat.mul_left_comm, ← Nat.mul_add, Nat.div_add_mod]
  omega

/-- Whether the payload has the declared number of bits in whole bytes. -/
theorem Struct.take_payloadSize_iff {s : Struct} {record : Record} {field : Field}
    (repeated : field.repetition ≠ .none) (rest : Bytes) :
    rest.take (s.payloadSize record field rest.length) =
        rest.take (record.repeats s field * field.width / 8) ↔
      (∃ n, field.repetition = .constant n) ∨
        rest.length ≤ record.repeats s field * (field.width / 8) ∨
        record.repeats s field * (field.width % 8) < 8 := by
  cases repetition : field.repetition with
  | none => exact absurd repetition repeated
  | constant n => simp [payloadSize, Record.repeats, repetition]
  | fieldRef index =>
    have smaller : record.repeats s field * (field.width / 8) ≤
        record.repeats s field * field.width / 8 := Nat.mul_div_le_mul_div_assoc _ _ _
    have short : rest.take (record.repeats s field * (field.width / 8)) =
        rest.take (record.repeats s field * field.width / 8) ↔
          rest.length ≤ record.repeats s field * (field.width / 8) ∨
          record.repeats s field * (field.width / 8) =
            record.repeats s field * field.width / 8 := by
      rw [List.take_eq_take_iff]
      omega
    simp only [payloadSize, repetition, short, mul_div_eq_iff, reduceCtorEq, exists_false, false_or]

/-- The payload of a structure that repeats it is what is left of the input, up to the size that the
count gives, and the cursor moves behind it. The count of a field makes reading fail if the size is
too large. The size is the declared number of bits in whole bytes for a constant count, but for the
count of a field only if the last bits of the elements together are less than a byte, or if the
input has no more. -/
theorem payload_of_repeated {document : Document} {window : Nat} {source : String}
    {model : Model} {s : Struct} {field : Field} {buffer : Bytes} {parsed : Codec.Parsed}
    {began : Reader} (accepted : analyze document window source = .ok model)
    (member : s ∈ model.structs) (shape : field.shape = .payload)
    (repeated : field.repetition ≠ .none)
    (reads : model.ReadsUpTo window s field ⟨buffer, 0⟩ parsed began) :
    ∃ head rest count payload, buffer = head ++ rest ∧ began = ⟨buffer, head.length⟩ ∧
      count = parsed.record.repeats s field ∧
      payload = rest.take (s.payloadSize parsed.record field rest.length) ∧
      (∀ n, field.repetition = .constant n → s.payloadSizeFits parsed.record field = true) ∧
      (∀ index, field.repetition = .fieldRef index →
        parsed.record.countAt s index = .ok count) ∧
      (s.payloadSizeFits parsed.record field = false →
        model.decode window s.id buffer = .error .sizeOverflow) ∧
      (s.payloadSizeFits parsed.record field = true →
        (Codec.decodePayload s parsed.record field).run began =
          .ok (.ok payload, ⟨buffer, (head ++ payload).length⟩) ∧
        (∀ decoded, model.decode window s.id buffer = .ok (.ok decoded) →
          decoded.payload = some payload) ∧
        (s.fields.getLast? = some field → ∃ packet, model.decode window s.id buffer =
          .ok (.ok ⟨packet, some payload, (head ++ payload).length⟩))) ∧
      (payload = rest.take (count * field.width / 8) ↔
        (∃ n, field.repetition = .constant n) ∨ rest.length ≤ count * (field.width / 8) ∨
          count * (field.width % 8) < 8) := by
  have formed : model.WellFormed window :=
    { coherent_of_analyze accepted with names := names_of_analyze accepted }
  have made := made_of_analyze accepted
  obtain ⟨head, rest, rfl, rfl⟩ := formed.payload_cursor member shape reads
  refine ⟨head, rest, _, _, rfl, rfl, rfl, rfl, ?_, ?_, ?_, ?_,
    s.take_payloadSize_iff repeated rest⟩
  · intro n constant
    exact made.payload_constant member reads.mem shape constant _
  · intro index repetition
    obtain ⟨_, -, counted, -⟩ := formed.count_of_readsUpTo member reads repetition
    exact counted
  · exact formed.payload_overflows made member shape reads
  · intro fits
    obtain ⟨own, front, back, laid, before, run⟩ :=
      formed.payload_read member shape reads fits rfl
    refine ⟨own, fun decoded read => ?_, ?_⟩
    · exact formed.decoded_payload member shape laid ⟨_, rfl⟩ run read
    · exact formed.decode_payload_last member shape laid before run

def traceDocument : Document where
  ranges := [⟨"'0x0001'", "#pair"⟩, ⟨"'0x0002'", "#trace"⟩]
  structs := [
    ("0x0001", [
      ⟨"u(16)", "pair_descriptor", "'0x0001'"⟩,
      ⟨"2*u(12)", "samples", "payload"⟩]),
    ("0x0002", [
      ⟨"u(16)", "trace_descriptor", "'0x0002'"⟩,
      ⟨"u(8)", "sample_count", ""⟩,
      ⟨"[=sample_count=]*u(12)", "samples", "payload"⟩])]

def traceStruct : Struct where
  key := "0x0002"
  id := "Trace"
  kind := "trace"
  role := .packet
  fields := [
    ⟨"trace_descriptor", .descriptor, 16, .none, some 2, false⟩,
    ⟨"sample_count", .scalar false, 8, .none, none, false⟩,
    ⟨"samples", .payload, 12, .fieldRef 1, none, false⟩]
  sizeBits := 24
  descriptor := some 2

def traceModel : Model where
  source := "trace"
  structs := [
    { key := "0x0001", id := "Pair", kind := "pair", role := .packet
      fields := [
        ⟨"pair_descriptor", .descriptor, 16, .none, some 1, false⟩,
        ⟨"samples", .payload, 12, .constant 2, none, false⟩]
      sizeBits := 16, descriptor := some 1 },
    traceStruct]
  descriptors := ⟨[("pair", 1), ("trace", 2)]⟩

theorem analyze_trace : analyze traceDocument 32 "trace" = .ok traceModel :=
  ok_of_toOption (by decide +kernel)

/-- A single number of twelve bits has one whole byte, whichever way it is measured. -/
theorem trace_payload :
    ∃ parsed began, traceModel.ReadsUpTo 32 traceStruct
        ⟨"samples", .payload, 12, .fieldRef 1, none, false⟩ ⟨[0, 2, 1, 0xab, 0xc0], 0⟩ parsed
        began ∧
      ∃ packet, traceModel.decode 32 "Trace" [0, 2, 1, 0xab, 0xc0] =
        .ok (.ok ⟨packet, some ([0xab, 0xc0].take (1 * 12 / 8)), 4⟩) := by
  have opening : (((traceStruct.fields.take 2).map Codec.Segment.aligned).foldlM
      (Codec.decodeSegment traceModel (traceModel.decoders 32) traceStruct) {}).run
        ⟨[0, 2, 1, 0xab, 0xc0], 0⟩ =
      .ok (.ok ⟨[("sample_count", .unsigned 1)], none⟩, ⟨[0, 2, 1, 0xab, 0xc0], 3⟩) := by
    set_option maxRecDepth 1000 in
    rfl
  have reads : traceModel.ReadsUpTo 32 traceStruct
      ⟨"samples", .payload, 12, .fieldRef 1, none, false⟩ ⟨[0, 2, 1, 0xab, 0xc0], 0⟩
      ⟨[("sample_count", .unsigned 1)], none⟩ ⟨[0, 2, 1, 0xab, 0xc0], 3⟩ :=
    ⟨_, [], rfl, opening⟩
  obtain ⟨head, rest, count, payload, split, cursor, counts, sized, -, -, -, read, -⟩ :=
    payload_of_repeated analyze_trace (by simp [traceModel]) rfl (by simp) reads
  have length : head.length = 3 := (Reader.mk.inj cursor).2.symm
  obtain ⟨rfl, rfl⟩ : head = [0, 2, 1] ∧ rest = [0xab, 0xc0] :=
    List.append_inj split.symm length
  obtain ⟨packet, decoded⟩ := (read rfl).2.2 rfl
  subst sized
  exact ⟨_, _, reads, packet, decoded⟩

/-- Two numbers of twelve bits fill three bytes, but a reader that is told their count gets two. -/
theorem trace_payload_short :
    analyze traceDocument 32 "trace" = .ok traceModel ∧
    traceModel.decode 32 "Pair" [0, 1, 0xab, 0xcd, 0xef] =
      .ok (.ok ⟨.record [], some [0xab, 0xcd, 0xef], 5⟩) ∧
    traceModel.decode 32 "Trace" [0, 2, 2, 0xab, 0xcd, 0xef] =
      .ok (.ok ⟨.record [("sample_count", .unsigned 2)], some [0xab, 0xcd], 5⟩) :=
  ⟨analyze_trace, rfl, rfl⟩

end PacketSpec
