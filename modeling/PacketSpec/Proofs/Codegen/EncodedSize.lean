import PacketSpec.Proofs.Codec.Static
import PacketSpec.Proofs.Codegen.Segments

/-! The size that a generated encoder computes: the header size of the structure, and one term for
each field whose size depends on the value. -/
namespace PacketSpec

def Field.varies (field : Field) : Bool :=
  match field.shape, field.repetition with
  | .payload, _ => false
  | .struct _, _ | _, .fieldRef _ => true
  | _, _ => false

theorem Field.staticBits_of_varies {field : Field} (varies : field.varies = true) :
    field.staticBits = 0 := by
  cases shape : field.shape <;> cases repetition : field.repetition <;>
    simp_all [Field.varies, Field.staticBits]

theorem WellFormedFields.count_of_mem {model : Model} {earlier : List Struct}
    {fields : List Field} {field : Field} {index : Nat}
    (formed : WellFormedFields model earlier fields) (member : field ∈ fields)
    (repetition : field.repetition = .fieldRef index) :
    ∃ count ∈ fields, fields[index]? = some count ∧ count.IsCount := by
  obtain ⟨front, back, place⟩ := List.append_of_mem member
  obtain ⟨count, before, found, counts⟩ := formed.count_before place repetition
  exact ⟨count, by simp [place, before], found, counts⟩

namespace Codegen

open Codec (Segment layout layout_fields layout_planned fields_chunkOf)

def variableSize (s : Struct) (field : Field) : Code :=
  let held := code "self." ++ identOf field.id
  match field.shape, field.repetition with
  | .struct _, .none => held ++ code ".encoded_len()"
  | .struct _, _ => held ++ code ".iter().map(Encode::encoded_len).sum::<usize>()"
  | _, .fieldRef index =>
    let count := if field.isStored then held ++ code ".len()"
      else (encoderCount s index).toOption.getD []
    byteLength count (field.width / 8)
  | _, _ => []

def variableSizes (s : Struct) (fields : List Field) : List Code :=
  (fields.filter Field.varies).map (variableSize s)

theorem encoderCount_ok {s : Struct} {model : Model} {earlier : List Struct} {field : Field}
    {index : Nat} (formed : WellFormedFields model earlier s.fields)
    (named : ∀ field ∈ s.fields, Named field.id) (member : field ∈ s.fields)
    (repetition : field.repetition = .fieldRef index) :
    ∃ count, encoderCount s index = .ok count := by
  obtain ⟨count, inside, found, -⟩ := formed.count_of_mem member repetition
  have named := named count inside
  rw [Named] at named
  cases fixed : count.fixed with
  | some n => exact ⟨_, by simp [encoderCount, found, fixed]; rfl⟩
  | none => exact ⟨_, by simp [encoderCount, found, fixed, named, bind, Except.bind]; rfl⟩

theorem encodeSize_eq {s : Struct} {draft : EncoderDraft} {field : Field}
    (measured : field.Measured)
    (counted : ∀ index, field.repetition = .fieldRef index →
      ∃ count, encoderCount s index = .ok count) :
    encodeSize s draft field (code "self." ++ identOf field.id) = .ok { draft with
      constantSize := draft.constantSize + field.staticBits / 8
      variableSizes := draft.variableSizes ++ variableSizes s [field] } := by
  unfold encodeSize
  by_cases header : field.shape = .payload
  · have fixed : field.varies = false := by simp [Field.varies, header]
    simp [header, variableSizes, fixed, Field.staticBits]
    rfl
  rw [if_neg (by simpa using header)]
  by_cases flat : field.shape.isStruct = false
  · rw [if_neg (by simp [flat])]
    by_cases known : ∀ index, field.repetition ≠ .fieldRef index
    · have fixed : field.varies = false := by
        cases shape : field.shape <;> cases repetition : field.repetition <;>
          simp_all [Field.varies, Shape.isStruct]
      rw [Field.wireBits?_static measured flat header known]
      simp [variableSizes, fixed, EncoderDraft.addConstant, bind, Except.bind]
      rfl
    · obtain ⟨index, repetition⟩ : ∃ index, field.repetition = .fieldRef index := by
        simpa using known
      have varies : field.varies = true := by
        cases shape : field.shape <;> simp_all [Field.varies, Shape.isStruct]
      obtain ⟨count, counts⟩ := counted index repetition
      have size : variableSize s field = byteLength (if field.isStored then
          code "self." ++ identOf field.id ++ code ".len()" else count) (field.width / 8) := by
        cases shape : field.shape <;>
          simp_all [variableSize, Shape.isStruct, Except.toOption]
      rw [Field.wireBits?_counted repetition, Field.staticBits_of_varies varies]
      by_cases stored : field.isStored = true <;>
        simp [variableSizes, varies, size, stored, repetition, counts, EncoderDraft.addVariable,
          bind, Except.bind] <;> rfl
  · obtain ⟨typeId, shape⟩ : ∃ typeId, field.shape = .struct typeId := by
      cases shape : field.shape <;> simp_all [Shape.isStruct]
    have varies : field.varies = true := by simp [Field.varies, shape]
    rw [if_pos (by simpa using flat), Field.staticBits_of_varies varies]
    cases repetition : field.repetition <;>
      simp [variableSizes, varies, variableSize, shape, repetition, EncoderDraft.addVariable] <;>
      rfl

theorem varies_of_packed {field : Field} (formed : field.WellFormed)
    (packed : field.isPacked = true) : field.varies = false := by
  obtain ⟨-, single, shape⟩ := formed.packed packed
  rcases shape with shape | ⟨typeId, shape⟩ <;> simp [Field.varies, shape, single]

structure Encodable (s : Struct) (field : Field) : Prop where
  formed : field.WellFormed
  measured : field.Measured
  named : Named field.id
  counted : ∀ index, field.repetition = .fieldRef index → ∃ count, encoderCount s index = .ok count

theorem encodeSegment_size {s : Struct} {window : Nat} {segment : Segment}
    {draft after : EncoderDraft} (planned : segment.Planned window)
    (fields : ∀ field ∈ segment.fields, Encodable s field)
    (written : encodeSegment s draft segment = .ok after) :
    after.constantSize = draft.constantSize + staticBitsOf segment.fields / 8 ∧
      after.variableSizes = draft.variableSizes ++ variableSizes s segment.fields := by
  cases segment with
  | chunk shared =>
    obtain ⟨narrow, rfl, packed, -⟩ := planned
    simp only [encodeSegment, encodeChunk, bind_eq_ok, pure_eq_ok] at written
    obtain ⟨_, -, _, -, rfl⟩ := written
    rw [fields_chunkOf] at fields ⊢
    rw [Codec.staticBitsOf_packed (fun field member => (fields field member).formed) packed,
      ← BitWindow.widthOf_widthsOf]
    have fixed : narrow.filter Field.varies = [] := by
      rw [List.filter_eq_nil_iff]
      intro field member
      simp [varies_of_packed (fields field member).formed (packed field member)]
    refine ⟨rfl, ?_⟩
    rw [variableSizes, fixed, List.map_nil, List.append_nil]
    rfl
  | aligned field =>
    have encodable := fields field (.head _)
    obtain ⟨id, known, middle, sized, _, -, _, -, rfl⟩ := encodeSegment_aligned planned written
    have named := encodable.named
    rw [Named, known] at named
    rw [Except.ok.inj named, encodeSize_eq encodable.measured encodable.counted] at sized
    cases sized
    exact ⟨by simp [EncoderDraft.emit, Segment.fields, staticBitsOf], rfl⟩

theorem encodeSegments_size {s : Struct} {window : Nat} {segments : List Segment}
    {draft after : EncoderDraft} (planned : ∀ segment ∈ segments, segment.Planned window)
    (sound : ∀ segment ∈ segments, segment.Sound)
    (fields : ∀ field ∈ segments.flatMap Segment.fields, Encodable s field)
    (written : segments.foldlM (encodeSegment s) draft = .ok after) :
    8 * after.constantSize =
        8 * draft.constantSize + staticBitsOf (segments.flatMap Segment.fields) ∧
      after.variableSizes =
        draft.variableSizes ++ variableSizes s (segments.flatMap Segment.fields) := by
  induction segments generalizing draft with
  | nil =>
    cases written
    exact ⟨rfl, (List.append_nil _).symm⟩
  | cons segment rest ih =>
    rw [List.foldlM_cons] at written
    obtain ⟨middle, first, others⟩ := bind_eq_ok.mp written
    have own : ∀ field ∈ segment.fields, Encodable s field :=
      fun field member => fields field (List.mem_append_left _ member)
    obtain ⟨constant, terms⟩ := encodeSegment_size (planned segment (.head _)) own first
    obtain ⟨more, further⟩ := ih (fun other member => planned other (.tail _ member))
      (fun other member => sound other (.tail _ member))
      (fun field member => fields field (List.mem_append_right _ member)) others
    have whole := (sound segment (.head _)).staticBits_whole fun field member =>
      (own field member).formed
    rw [List.flatMap_cons, Codec.staticBitsOf_append]
    refine ⟨by omega, ?_⟩
    rw [further, terms, variableSizes, variableSizes, variableSizes, List.filter_append,
      List.map_append, List.append_assoc]

def encoderText (name size statements : Code) : Code :=
  code "impl Encode for" ++ name ++ braces (
    code "fn encoded_len(&self) -> usize" ++ braces size ++
    code "fn encode(&self, w: &mut Writer<'_>) -> Result<(), EncodeError>" ++
    braces (statements ++ code "Ok(())"))

theorem EncoderDraft.size_eq {draft : EncoderDraft} (positive : 0 < draft.constantSize) :
    draft.size = joinWith '+' (number draft.constantSize :: draft.variableSizes) := by
  unfold size
  cases draft.variableSizes with
  | nil => simp [joinWith, List.intercalate]
  | cons first rest =>
    have plus : code "+" = [.mark '+'] := by decide
    simp [joinWith, List.intercalate, plus, Nat.ne_of_gt positive]

theorem named_of_encodeFields {s : Struct} {fields : List Field} {draft after : EncoderDraft}
    (written : fields.foldlM (encodeField s) draft = .ok after) :
    ∀ field ∈ fields, Named field.id := by
  induction fields generalizing draft with
  | nil => simp
  | cons field rest ih =>
    rw [List.foldlM_cons] at written
    obtain ⟨middle, first, others⟩ := bind_eq_ok.mp written
    refine List.forall_mem_cons.mpr ⟨?_, ih others⟩
    unfold encodeField at first
    split at first
    · obtain ⟨id, known, -⟩ := bind_eq_ok.mp first
      exact named_of_ident known
    · obtain ⟨id, known, -⟩ := bind_eq_ok.mp first
      exact named_of_ident known

/-- The size that the encoder of a structure computes starts with the header size. -/
theorem encodeImpl_size {s : Struct} {model : Model} {window : Nat} {earlier : List Struct}
    {text : Code} (formed : s.WellFormed window model earlier) (made : s.Made)
    (written : encodeImpl window s = .ok text) :
    ∃ name statements, text =
      encoderText name (joinWith '+' (number s.headerSize :: variableSizes s s.fields))
        statements := by
  obtain ⟨draft, folded, written⟩ := bind_eq_ok.mp written
  obtain ⟨name, -, written⟩ := bind_eq_ok.mp written
  cases written
  have named := named_of_encodeFields folded
  obtain ⟨segments, laid⟩ := formed.laid
  obtain ⟨whole, sound⟩ := layout_fields laid
  rw [encodeFields_eq laid named rfl] at folded
  have fields : ∀ field ∈ segments.flatMap Segment.fields, Encodable s field := by
    rw [whole]
    intro field member
    exact ⟨formed.fields.each field member, made.fields field member, named field member,
      fun index => encoderCount_ok formed.fields named member⟩
  obtain ⟨constant, terms⟩ := encodeSegments_size (layout_planned laid) sound fields folded
  rw [whole] at constant terms
  have positive := formed.occupied
  have size := formed.sizeBits
  have header : draft.constantSize = s.headerSize := by
    rw [Struct.headerSize]
    simp only [Nat.mul_zero, Nat.zero_add] at constant
    omega
  refine ⟨name, draft.statements, ?_⟩
  rw [← header, ← show draft.variableSizes = variableSizes s s.fields from terms,
    ← draft.size_eq (by omega)]
  rfl

end Codegen

end PacketSpec
