import Mathlib.Data.List.Induction
import PacketSpec.Proofs.Codec.Holding
import PacketSpec.Proofs.Reached

/-!
Where reading fails. All types are known and all counts are there, so no step fails but one that
multiplies a count with the bytes of an element: a padding or a payload whose size is too large.
-/
namespace PacketSpec

open Wire

namespace Decode

variable {α β : Type} {reader : Reader}

/-- The step gives a result or an error of the format. -/
def Total (step : Decode α) : Prop := ∀ reader fault, step.run reader ≠ .error fault

/-- The step fails at the readers that are bad, and only because a size is too large. -/
def FailsAt (bad : Reader → Prop) (step : Decode α) : Prop :=
  ∀ reader fault, step.run reader = .error fault ↔ fault = .sizeOverflow ∧ bad reader

theorem Total.failsAt {step : Decode α} {bad : Reader → Prop} (total : Total step)
    (never : ∀ reader, ¬bad reader) : FailsAt bad step := by
  intro reader fault
  constructor
  · intro fails
    exact absurd fails (total reader fault)
  · rintro ⟨-, holds⟩
    exact absurd holds (never reader)

theorem FailsAt.total {step : Decode α} {bad : Reader → Prop} (fails : FailsAt bad step)
    (never : ∀ reader, ¬bad reader) : Total step := by
  intro reader fault run
  exact never reader ((fails reader fault).mp run).2

theorem FailsAt.congr {step : Decode α} {bad other : Reader → Prop} (fails : FailsAt bad step)
    (same : ∀ reader, bad reader ↔ other reader) : FailsAt other step := by
  intro reader fault
  rw [fails reader fault, same]

theorem total_pure (a : α) : Total (pure a) := by
  intro reader fault run
  cases run

theorem total_read (action : StateM Reader α) : Total (read action) := by
  intro reader fault run
  cases run

theorem total_remaining : Total remaining := by
  intro reader fault run
  cases run

theorem total_throw {error : DecodeError} : Total (throw error : Decode α) := by
  intro reader fault run
  cases run

theorem check_bind {result : Except Fault α} {a : α} (known : result = .ok a)
    (next : α → Decode β) : check result >>= next = next a := by
  rw [known]
  rfl

theorem failsAt_check_mul (a b : Nat) (next : Nat → Decode β) (continues : Total (next (a * b))) :
    FailsAt (fun _ => Size.bound ≤ a * b) (check (Size.mul a b) >>= next) := by
  by_cases small : a * b < Size.bound
  · rw [check_bind (Size.mul_eq_ok.mpr ⟨rfl, small⟩)]
    exact continues.failsAt fun _ => Nat.not_le.mpr small
  · have large := Nat.not_lt.mp small
    intro reader fault
    rw [Size.mul, Size.check_of_le large]
    constructor
    · intro run
      cases run
      exact ⟨rfl, large⟩
    · rintro ⟨rfl, -⟩
      rfl

theorem FailsAt.bind {step : Decode α} {next : α → Decode β} {bad : Reader → Prop}
    {worse : α → Reader → Prop} (first : FailsAt bad step)
    (continues : ∀ reader a middle, step.run reader = .ok (.ok a, middle) →
      FailsAt (worse a) (next a)) :
    FailsAt (fun reader => bad reader ∨
      ∃ a middle, step.run reader = .ok (.ok a, middle) ∧ worse a middle) (step >>= next) := by
  intro reader fault
  have own := first reader
  rw [run_bind]
  rcases run : step.run reader with stop | ⟨error | a, middle⟩
  · obtain ⟨rfl, holds⟩ := (own stop).mp run
    simp [holds, eq_comm]
  · have fine : ¬bad reader := by simpa [run] using own .sizeOverflow
    simp [fine, run]
  · have fine : ¬bad reader := by simpa [run] using own .sizeOverflow
    simpa [fine, run] using continues reader a middle run middle fault

theorem Total.bind {step : Decode α} {next : α → Decode β} (first : Total step)
    (continues : ∀ a, Total (next a)) : Total (step >>= next) := by
  intro reader fault
  rw [run_bind]
  rcases run : step.run reader with stop | ⟨error | a, middle⟩
  · exact absurd run (first reader stop)
  · simp
  · exact continues a middle fault

theorem Total.return {step : Decode α} (f : α → β) (total : Total step) :
    Total (do return f (← step)) := total.bind fun _ => total_pure _

theorem FailsAt.return {step : Decode α} {bad : Reader → Prop} (f : α → β)
    (fails : FailsAt bad step) : FailsAt bad (do return f (← step)) := by
  refine (fails.bind fun _ a _ _ => (total_pure (f a)).failsAt fun _ => id).congr fun reader => ?_
  simp

theorem total_foldlM {items : List α} {step : β → α → Decode β}
    (each : ∀ item ∈ items, ∀ b, Total (step b item)) (start : β) :
    Total (items.foldlM step start) := by
  induction items generalizing start with
  | nil => exact total_pure start
  | cons item rest ih =>
    rw [List.foldlM_cons]
    exact (each item (.head _) start).bind (ih fun other member => each other (.tail _ member))

/-- A fold fails where the step for an item fails after those before it have succeeded. -/
theorem failsAt_foldlM {items : List α} {step : β → α → Decode β} {start : β}
    {worse : β → α → Reader → Prop}
    (each : ∀ front item back, items = front ++ item :: back → ∀ reader b middle,
      (front.foldlM step start).run reader = .ok (.ok b, middle) →
        FailsAt (worse b item) (step b item)) :
    FailsAt (fun reader => ∃ front item back, items = front ++ item :: back ∧ ∃ b middle,
      (front.foldlM step start).run reader = .ok (.ok b, middle) ∧ worse b item middle)
      (items.foldlM step start) := by
  -- from the end, so that the items in front of the last one are a run of their own
  induction items using List.reverseRecOn with
  | nil => exact (total_pure start).failsAt (by simp)
  | append_singleton items item ih =>
    have shorter := ih fun front other back split =>
      each front other (back ++ [item]) (by simp [split])
    have last := each items item [] rfl
    rw [List.foldlM_append]
    simp only [List.foldlM_cons, List.foldlM_nil, bind_pure]
    refine (shorter.bind last).congr fun reader => ?_
    constructor
    · rintro (⟨front, other, back, rfl, fails⟩ | ⟨b, middle, run, fails⟩)
      · exact ⟨front, other, back ++ [item], by simp, fails⟩
      · exact ⟨items, item, [], rfl, b, middle, run, fails⟩
    · rintro ⟨front, other, back, split, fails⟩
      rcases List.eq_nil_or_concat back with rfl | ⟨back, final, rfl⟩
      · obtain ⟨rfl, same⟩ := List.append_inj' split rfl
        cases same
        exact .inr fails
      · rw [List.concat_eq_append, ← List.cons_append, ← List.append_assoc] at split
        obtain ⟨rfl, -⟩ := List.append_inj' split rfl
        exact .inl ⟨front, other, back, rfl, fails⟩

/-- A number of elements is read; the first one that is bad makes it fail. -/
theorem failsAt_times {element : Decode α} {bad : Reader → Prop} (each : FailsAt bad element)
    (count : Nat) :
    FailsAt (fun reader => ∃ index < count, ∃ list middle,
      (times element index).run reader = .ok (.ok list, middle) ∧ bad middle)
      (times element count) := by
  induction count with
  | zero => exact (total_pure []).failsAt (by simp)
  | succ count ih =>
    refine (each.bind fun _ first _ _ => ih.return (first :: ·)).congr fun reader => ?_
    constructor
    · rintro (fails | ⟨first, middle, one, index, inside, list, after, run, fails⟩)
      · exact ⟨0, Nat.succ_pos _, [], reader, rfl, fails⟩
      · refine ⟨index + 1, Nat.succ_lt_succ inside, first :: list, after, ?_, fails⟩
        exact run_bind_eq_ok.mpr ⟨first, middle, one, run_return_eq_ok.mpr ⟨list, run, rfl⟩⟩
    · rintro ⟨index, inside, list, after, run, fails⟩
      cases index with
      | zero =>
        cases run
        exact .inl fails
      | succ index =>
        obtain ⟨first, middle, one, run⟩ := run_bind_eq_ok.mp run
        obtain ⟨rest, others, -⟩ := run_return_eq_ok.mp run
        exact .inr ⟨first, middle, one, index, Nat.lt_of_succ_lt_succ inside, rest, after, others,
          fails⟩

theorem upTo_run (element : Decode α) (count : Nat) (reader : Reader) :
    (upTo element (count + 1)).run reader =
      if reader.remaining = 0 then .ok (.ok [], reader)
      else (do return (← element) :: (← upTo element count) : Decode (List α)).run reader := by
  show (if reader.remaining == 0 then pure []
    else do return (← element) :: (← upTo element count) : Decode (List α)).run reader = _
  by_cases ended : reader.remaining = 0
  · rw [if_pos ended, if_pos (by simpa using ended)]
    rfl
  · rw [if_neg ended, if_neg (by simpa using ended)]

/-- The same as long as there is input. -/
theorem failsAt_upTo {element : Decode α} {bad : Reader → Prop} (each : FailsAt bad element)
    (count : Nat) :
    FailsAt (fun reader => ∃ index < count, ∃ list middle,
      (upTo element index).run reader = .ok (.ok list, middle) ∧ 0 < middle.remaining ∧ bad middle)
      (upTo element count) := by
  induction count with
  | zero => exact (total_pure []).failsAt (by simp)
  | succ count ih =>
    intro reader fault
    rw [upTo_run]
    by_cases ended : reader.remaining = 0
    · -- nothing is read at the end, whatever the number of elements
      have stays (index : Nat) {list : List α} {middle : Reader}
          (run : (upTo element index).run reader = .ok (.ok list, middle)) : middle = reader := by
        cases index with
        | zero =>
          cases run
          rfl
        | succ index =>
          rw [upTo_run, if_pos ended] at run
          cases run
          rfl
      rw [if_pos ended]
      constructor
      · intro run
        cases run
      · rintro ⟨-, index, -, list, middle, run, available, -⟩
        rw [stays index run, ended] at available
        cases available
    · rw [if_neg ended, each.bind (fun _ first _ _ => ih.return (first :: ·)) reader fault]
      refine and_congr_right fun _ => ?_
      constructor
      · rintro (fails | ⟨first, middle, one, index, inside, list, after, run, more, fails⟩)
        · exact ⟨0, Nat.succ_pos _, [], reader, rfl, Nat.pos_of_ne_zero ended, fails⟩
        · refine ⟨index + 1, Nat.succ_lt_succ inside, first :: list, after, ?_, more, fails⟩
          rw [upTo_run, if_neg ended]
          exact run_bind_eq_ok.mpr ⟨first, middle, one, run_return_eq_ok.mpr ⟨list, run, rfl⟩⟩
      · rintro ⟨index, inside, list, after, run, more, fails⟩
        cases index with
        | zero =>
          cases run
          exact .inl fails
        | succ index =>
          rw [upTo_run, if_neg ended] at run
          obtain ⟨first, middle, one, run⟩ := run_bind_eq_ok.mp run
          obtain ⟨rest, others, -⟩ := run_return_eq_ok.mp run
          exact .inr ⟨first, middle, one, index, Nat.lt_of_succ_lt_succ inside, rest, after, others,
            more, fails⟩

end Decode

namespace Codec

open Decode

variable {model : Model} {nested : String → Option Decoder} {bad : String → Reader → Prop}
  {s : Struct} {record : Record} {field : Field} {parsed : Parsed}

theorem total_checkFixed {actual expected : Nat} :
    Total (checkFixed s field actual expected) := by
  unfold checkFixed
  split
  · exact total_pure ()
  · exact total_throw

def Visits (element : Decode Value) (s : Struct) (record : Record) (field : Field)
    (began reached : Reader) : Prop :=
  match field.repetition with
  | .none => reached = began
  | .constant count => ∃ index < count, ∃ list,
      (times element index).run began = .ok (.ok list, reached)
  | .fieldRef _ => ∃ index < record.repeats s field, ∃ list,
      (upTo element index).run began = .ok (.ok list, reached) ∧ 0 < reached.remaining

/-- Where reading a field fails: the size of a counted padding or payload is too large, or an
element is a structure whose reading fails. -/
def fieldFails (nested : String → Option Decoder) (bad : String → Reader → Prop) (s : Struct)
    (record : Record) (field : Field) (began : Reader) : Prop :=
  match field.shape with
  | .padding | .payload => (∃ index, field.repetition = .fieldRef index) ∧
      Size.bound ≤ record.repeats s field * (field.width / 8)
  | .struct typeId => ∃ decoder reached, nested typeId = some decoder ∧
      Visits (Prod.fst <$> decoder) s record field began reached ∧ bad typeId reached
  | _ => False

theorem total_decodePacked {word : Nat} {packed : Packed Field}
    (resolved : Resolved model packed.symbol) :
    Total (decodePacked model s word parsed packed) := by
  simp only [decodePacked]
  split
  · exact total_checkFixed.return fun _ => parsed
  · next typeId _ shape =>
    obtain ⟨e, known, -⟩ := resolved.enums typeId shape
    rw [check_bind (by rw [Model.enum, known])]
    exact total_pure _
  · exact total_pure _

theorem total_decodeElement (resolved : Resolved model field)
    (kind : field.shape.isElement = true) (plain : field.shape.isStruct = false) :
    Total (decodeElement model nested field) := by
  cases shape : field.shape with
  | scalar signed =>
    cases signed <;> simp only [decodeElement, shape] <;> exact (total_read _).return _
  | rational =>
    simp only [decodeElement, shape]
    exact (total_read _).return _
  | enum typeId =>
    obtain ⟨e, known, -⟩ := resolved.enums typeId shape
    simp only [decodeElement, shape]
    rw [check_bind (by rw [Model.enum, known])]
    exact (total_read _).return _
  | _ => simp [shape, Shape.isElement, Shape.isStruct] at kind plain

theorem total_decodeElements (element : Total (decodeElement model nested field))
    (plain : field.shape.isStruct = false)
    (counted : ∀ index, field.repetition = .fieldRef index →
      record.countAt s index = .ok (record.repeats s field)) :
    Total (decodeElements model nested s record field) := by
  have times (count : Nat) : Total (times (decodeElement model nested field) count) :=
    (failsAt_times (element.failsAt fun _ => id) count).total (by simp)
  simp only [decodeElements]
  split
  · exact element
  · split
    · exact (total_read _).return _
    · exact (times _).return _
  · next index repetition =>
    rw [check_bind (counted index repetition), plain]
    split
    · exact (total_read _).return _
    · exact total_remaining.bind fun _ => (times _).return _

theorem decodeElements_failsAt {typeId : String} {decoder : Decoder}
    (shape : field.shape = .struct typeId) (found : nested typeId = some decoder)
    (fails : FailsAt (bad typeId) decoder)
    (counted : ∀ index, field.repetition = .fieldRef index →
      record.countAt s index = .ok (record.repeats s field)) :
    FailsAt (fieldFails nested bad s record field)
      (decodeElements model nested s record field) := by
  have element : decodeElement model nested field = Prod.fst <$> decoder := by
    simp only [decodeElement, shape, found]
  have each : FailsAt (bad typeId) (Prod.fst <$> decoder) := by
    rw [← bind_pure_comp]
    exact fails.return Prod.fst
  have other : field.isByteBuffer = false := by simp [Field.isByteBuffer, shape]
  have same (began : Reader) :
      (∃ reached, Visits (Prod.fst <$> decoder) s record field began reached ∧ bad typeId reached) ↔
        fieldFails nested bad s record field began := by
    simp [fieldFails, shape, found]
  simp only [decodeElements, element, other, shape, Shape.isStruct, Bool.false_eq_true, if_false,
    if_true]
  cases repetition : field.repetition with
  | none =>
    refine each.congr fun began => ?_
    rw [← same]
    simp [Visits, repetition]
  | constant count =>
    refine ((failsAt_times each count).return Value.list).congr fun began => ?_
    rw [← same]
    simp only [Visits, repetition]
    grind
  | fieldRef index =>
    simp only [check_bind (counted index repetition)]
    refine ((failsAt_upTo each _).return Value.list).congr fun began => ?_
    rw [← same]
    simp only [Visits, repetition]
    grind

def PartFails (nested : String → Option Decoder) (bad : String → Reader → Prop) (field : Field) :
    Prop :=
  ∀ typeId, field.shape = .struct typeId →
    ∃ decoder, nested typeId = some decoder ∧ FailsAt (bad typeId) decoder

structure Readable (model : Model) (s : Struct) (record : Record) (field : Field) : Prop where
  formed : field.WellFormed
  resolved : Resolved model field
  measured : field.Measured
  wide : field.isPacked = false
  counted : ∀ index, field.repetition = .fieldRef index →
    record.countAt s index = .ok (record.repeats s field)

theorem decodeStored_failsAt (part : PartFails nested bad field)
    (readable : Readable model s record field) (stored : field.isStored = true) :
    FailsAt (fieldFails nested bad s record field) (decodeStored model nested s record field) := by
  have elements (kind : field.shape.isElement = true) (plain : field.shape.isStruct = false) :=
    @total_decodeElements model nested s record field
      (total_decodeElement readable.resolved kind plain) plain readable.counted
  have never (plain : field.shape.isStruct = false) (began : Reader) :
      ¬fieldFails nested bad s record field began := by
    unfold fieldFails
    split <;> simp_all [Field.isStored, Shape.isStruct]
  cases shape : field.shape with
  | struct typeId =>
    obtain ⟨decoder, found, fails⟩ := part typeId shape
    simp only [decodeStored, shape]
    exact decodeElements_failsAt shape found fails readable.counted
  | scalar signed =>
    refine Total.failsAt ?_ (never (by simp [shape, Shape.isStruct]))
    simp only [decodeStored, shape]
    split
    · exact (total_read _).return _
    · exact elements (by simp [shape, Shape.isElement]) (by simp [shape, Shape.isStruct])
  | rational | enum =>
    refine Total.failsAt ?_ (never (by simp [shape, Shape.isStruct]))
    simp only [decodeStored, shape]
    exact elements (by simp [shape, Shape.isElement]) (by simp [shape, Shape.isStruct])
  | bytes | string | descriptor =>
    refine Total.failsAt ?_ (never (by simp [shape, Shape.isStruct]))
    simp only [decodeStored, shape]
    exact (total_read _).return _
  | bitfield =>
    have admits := readable.formed.shape
    have wide := readable.wide
    simp only [shape, Shape.Admits] at admits
    simp [Field.isPacked, shape] at wide
    omega
  | padding | parity | payload => simp [Field.isStored, shape, Shape.isParity] at stored

theorem decodePayload_failsAt (readable : Readable model s record field)
    (shape : field.shape = .payload) :
    FailsAt (fieldFails nested bad s record field) (decodePayload s record field) := by
  have measured := readable.measured.bits (by simp [shape, Shape.isParity])
  unfold decodePayload
  cases repetition : field.repetition with
  | none =>
    exact (total_remaining.bind fun _ => total_read _).failsAt
      (by simp [fieldFails, shape, repetition])
  | constant count =>
    have small : count * field.width < Size.bound := by
      rwa [repetition, Repetition.constantCount, Nat.mul_comm] at measured
    simp only [check_bind (Size.mul_eq_ok.mpr ⟨rfl, small⟩)]
    exact ((total_pure _).bind fun _ => total_read _).failsAt
      (by simp [fieldFails, shape, repetition])
  | fieldRef index =>
    simp only [check_bind (readable.counted index repetition), elementBytes]
    refine (failsAt_check_mul _ _ _ (total_read _)).congr fun began => ?_
    simp [fieldFails, shape, repetition]

theorem decodeImplied_failsAt (readable : Readable model s parsed.record field)
    (implied : field.isStored = false) :
    FailsAt (fieldFails nested bad s parsed.record field) (decodeImplied s parsed field) := by
  rcases readable.formed.implied_cases readable.wide implied with shape | shape | ⟨code, shape⟩ |
    ⟨n, fixed, -, number⟩
  · simp only [decodeImplied, shape]
    exact (decodePayload_failsAt readable shape).return _
  · simp only [decodeImplied, shape]
    split
    · next index repetition =>
      simp only [check_bind (readable.counted index repetition), elementBytes]
      refine (failsAt_check_mul _ _ _ ((total_read _).return fun _ => parsed)).congr fun began => ?_
      simp [fieldFails, shape, repetition]
    · next known =>
      rw [check_bind (Field.wireBits?_static readable.measured (by simp [shape, Shape.isStruct])
        (by simp [shape]) known)]
      refine ((total_read _).return fun _ => parsed).failsAt fun began => ?_
      simpa [fieldFails, shape] using fun index repetition => absurd repetition (known index)
  · simp only [decodeImplied, shape]
    exact ((total_read _).return fun _ => parsed).failsAt (by simp [fieldFails, shape])
  · have compared (shape : ∀ typeId, field.shape ≠ .struct typeId)
        (padding : field.shape ≠ .padding) (header : field.shape ≠ .payload) (actual : Nat → Nat) :
        FailsAt (fieldFails nested bad s parsed.record field) (do
          let code ← read (Reader.unsigned (field.width / 8))
          checkFixed s field (actual code) n
          return parsed) := by
      refine ((total_read _).bind fun _ => total_checkFixed.return fun _ => parsed).failsAt ?_
      unfold fieldFails
      split <;> simp_all
    cases shape : field.shape <;> simp [shape, Shape.isScalar] at number
    · simp only [decodeImplied, shape, fixed]
      exact compared (by simp [shape]) (by simp [shape]) (by simp [shape]) id
    · simp only [decodeImplied, shape, fixed]
      exact compared (by simp [shape]) (by simp [shape]) (by simp [shape])
        fun code => if field.width == 8 then code <<< 8 else code

def segmentFails (nested : String → Option Decoder) (bad : String → Reader → Prop) (s : Struct)
    (parsed : Parsed) : Segment → Reader → Prop
  | .chunk _, _ => False
  | .aligned field, began => fieldFails nested bad s parsed.record field began

theorem decodeSegment_failsAt {segment : Segment}
    (parts : ∀ field ∈ segment.fields, PartFails nested bad field)
    (resolved : ∀ field ∈ segment.fields, Resolved model field)
    (readable : ∀ field, segment = .aligned field → Readable model s parsed.record field) :
    FailsAt (segmentFails nested bad s parsed segment)
      (decodeSegment model nested s parsed segment) := by
  cases segment with
  | chunk shared =>
    refine ((total_read _).bind fun word =>
      total_foldlM (fun packed member parsed => ?_) parsed).failsAt (by simp [segmentFails])
    exact total_decodePacked (resolved packed.symbol (List.mem_map_of_mem member))
  | aligned field =>
    have readable := readable field rfl
    rw [decodeSegment]
    split
    · next stored => exact (decodeStored_failsAt (parts field (.head _)) readable stored).return _
    · next implied => exact decodeImplied_failsAt readable (by simpa using implied)

/-- What was stored for the fields can be collected. -/
theorem collect_held (held : ∀ field ∈ s.fields, Held parsed field) :
    ∃ fields, (s.storedFields.mapM fun field => do
      return (field.id, ← parsed.record.get field.id) : Except Fault Record) = .ok fields := by
  apply Succeeds.mapM
  intro field member
  obtain ⟨inside, stored⟩ := mem_storedFields member
  obtain ⟨value, found, -⟩ := held field inside stored
  exact Succeeds.map _ ⟨value, Record.get_eq_ok.mpr found⟩

/-- Reading a structure fails where one of its fields does, after those before it were read. -/
theorem decodeStruct_failsAt {window : Nat} {earlier : List Struct}
    (parts : ∀ field ∈ s.fields, PartFails nested bad field)
    (formed : s.WellFormed window model earlier)
    (enums : ∀ e ∈ model.enums, e.WellFormed) (measured : ∀ field ∈ s.fields, field.Measured) :
    FailsAt (fun reader => ∃ front field back parsed began,
      layout window s = .ok (front ++ .aligned field :: back) ∧
      (front.foldlM (decodeSegment model nested s) {}).run reader = .ok (.ok parsed, began) ∧
      fieldFails nested bad s parsed.record field began) (decodeStruct model window nested s) := by
  obtain ⟨segments, laid⟩ := formed.laid
  obtain ⟨whole, sound⟩ := layout_fields laid
  have fields := formed.fields
  have resolved (field : Field) (member : field ∈ s.fields) : Resolved model field :=
    resolved_of_formed fields enums member
  have each (front : List Segment) (segment : Segment) (back : List Segment)
      (split : segments = front ++ segment :: back) (reader : Reader) (parsed : Parsed)
      (began : Reader)
      (run : (front.foldlM (decodeSegment model nested s) {}).run reader =
        .ok (.ok parsed, began)) :
      FailsAt (segmentFails nested bad s parsed segment)
        (decodeSegment model nested s parsed segment) := by
    have inside (field : Field) (own : field ∈ segment.fields) : field ∈ s.fields :=
      whole ▸ List.mem_flatMap.mpr ⟨segment, by simp [split], own⟩
    refine decodeSegment_failsAt (fun field own => parts field (inside field own))
      (fun field own => resolved field (inside field own)) ?_
    rintro field rfl
    have member := inside field (.head _)
    refine ⟨fields.each field member, resolved field member, measured field member,
      sound (.aligned field) (by simp [split]), fun index repetition => ?_⟩
    obtain ⟨count, -, counted, -⟩ := count_of_run fields (split ▸ laid) run repetition
    exact counted
  have collects (reader : Reader) (parsed : Parsed) (after : Reader)
      (run : (segments.foldlM (decodeSegment model nested s) {}).run reader =
        .ok (.ok parsed, after)) :
      FailsAt (fun _ => False) (do
        let fields ← check (s.storedFields.mapM fun field =>
          return (field.id, ← parsed.record.get field.id))
        return (Value.record fields, parsed.payload)) := by
    have held := decodeSegments_held sound (by rw [whole]; exact fields.each)
      (by rw [whole]; exact fields.ids) run
    rw [whole] at held
    obtain ⟨collected, known⟩ := collect_held held
    rw [check_bind known]
    exact (total_pure _).failsAt fun _ => id
  unfold decodeStruct
  rw [check_bind laid]
  refine ((failsAt_foldlM each).bind collects).congr fun reader => ?_
  constructor
  · rintro (⟨front, segment, back, rfl, parsed, began, run, fails⟩ | ⟨_, _, _, fails⟩)
    · cases segment with
      | chunk shared => cases fails
      | aligned field => exact ⟨front, field, back, parsed, began, laid, run, fails⟩
    · cases fails
  · rintro ⟨front, field, back, parsed, began, same, run, fails⟩
    cases laid.symm.trans same
    exact .inl ⟨front, .aligned field, back, rfl, parsed, began, run, fails⟩

end Codec

theorem Model.decode_eq_error {model : Model} {window : Nat} {id : String}
    {decoder : Codec.Decoder} {buffer : Bytes} {fault : Fault}
    (known : model.decoder window id = .ok decoder) :
    model.decode window id buffer = .error fault ↔ decoder.run ⟨buffer, 0⟩ = .error fault := by
  simp only [Model.decode, known, bind, Except.bind]
  split
  · next failed => simp [failed]
  · next finished => simp [finished, pure, Except.pure]

end PacketSpec
