import Mathlib.Data.List.Nodup
import Mathlib.Logic.ExistsUnique
import PacketSpec.Proofs.Codegen.Planners
import PacketSpec.Proofs.Codegen.Units

/-! The generators rely on what was checked when the model was built. They never meet a structure
that they cannot take, and they pack its narrow fields as the check did. -/
namespace PacketSpec

open Codec (Segment layout layout_fields layout_planned)

namespace Codec

/-- No field stands in two segments. -/
theorem segment_unique {segments : List Segment} {first second : Segment} {field : Field}
    (distinct : (segments.flatMap Segment.fields).Nodup) (one : first ∈ segments)
    (other : second ∈ segments) (inside : field ∈ first.fields) (again : field ∈ second.fields) :
    first = second := by
  induction segments with
  | nil => cases one
  | cons segment rest ih =>
    rw [List.flatMap_cons] at distinct
    obtain ⟨-, others, apart⟩ := List.nodup_append.mp distinct
    have later {segment : Segment} (listed : segment ∈ rest) (held : field ∈ segment.fields) :
        field ∈ rest.flatMap Segment.fields := List.mem_flatMap.mpr ⟨segment, listed, held⟩
    rcases List.mem_cons.mp one with rfl | earlier
    · rcases List.mem_cons.mp other with rfl | behind
      · rfl
      · exact absurd rfl (apart field inside field (later behind again))
    · rcases List.mem_cons.mp other with rfl | behind
      · exact absurd rfl (apart field again field (later earlier inside))
      · exact ih others earlier behind

/-- A packed field stands in one chunk. -/
theorem packed_unique {window : Nat} {s : Struct} {segments : List Segment} {field : Field}
    (laid : layout window s = .ok segments) (ids : (s.fields.map Field.id).Nodup)
    (member : field ∈ s.fields) (packed : field.isPacked = true) :
    ∃! shared, Segment.chunk shared ∈ segments ∧ field ∈ (Segment.chunk shared).fields := by
  have distinct : (segments.flatMap Segment.fields).Nodup := by
    rw [(layout_fields laid).1]
    exact .of_map Field.id ids
  rw [← (layout_fields laid).1] at member
  obtain ⟨segment, listed, inside⟩ := List.mem_flatMap.mp member
  cases segment with
  | chunk shared =>
    refine ⟨shared, ⟨listed, inside⟩, ?_⟩
    rintro other ⟨too, again⟩
    exact Segment.chunk.inj (segment_unique distinct too listed again inside)
  | aligned only =>
    have wide : only.isPacked = false := layout_planned laid _ listed
    rw [List.mem_singleton.mp inside, wide] at packed
    cases packed

end Codec

/-- The first fields of a structure, up to one that is not packed or up to the end. -/
def Struct.Reaches (s : Struct) (front : List Field) : Prop :=
  ∃ back, s.fields = front ++ back ∧ ∀ field ∈ back.head?, field.isPacked = false

theorem Struct.Reaches.segments {window : Nat} {s : Struct} {front : List Field}
    {segments : List Segment} (reaches : s.Reaches front) (laid : layout window s = .ok segments) :
    ∃ before after, segments = before ++ after ∧ before.flatMap Segment.fields = front := by
  obtain ⟨back, split, wide⟩ := reaches
  obtain ⟨whole, sound⟩ := layout_fields laid
  rw [split] at whole
  cases back with
  | nil => exact ⟨segments, [], by simp, by simpa using whole⟩
  | cons field rest =>
    obtain ⟨before, after, same, fields, -⟩ := Codec.segments_split sound whole (wide field rfl)
    exact ⟨before, _, same, fields⟩

/-- The check of a structure, its encoder and its decoder take its fields by the same segments. -/
structure Struct.PlansAgree (s : Struct) (window : Nat) (segments : List Segment) : Prop where
  /-- No field is left out, and none is moved. -/
  fields : segments.flatMap Segment.fields = s.fields
  planned : ∀ segment ∈ segments, segment.Planned window
  packed : ∀ field ∈ s.fields, field.isPacked = true →
    ∃! shared, Segment.chunk shared ∈ segments ∧ field ∈ (Segment.chunk shared).fields
  checked : ∀ key context,
    Builder.Yields (Builder.checkWindow key 0 (BitWindow.empty window) s.fields) context () context
  /-- The check remembers the indices of the fields in its chunks. -/
  chunks : ∃ chunks, Plans (fun index _ => index) 0 (BitWindow.empty window) s.fields chunks ∧
    chunks.map (Chunk.map fun index => s.fields[index]?) =
      (segments.filterMap Segment.chunk?).map (Chunk.map some)
  encoder : ∀ draft : Codegen.EncoderDraft, draft.window = BitWindow.empty window →
    s.fields.foldlM (Codegen.encodeField s) draft =
      segments.foldlM (Codegen.encodeSegment s) draft
  decoder : ∀ draft : Codegen.DecoderDraft, draft.window = BitWindow.empty window →
    s.fields.foldlM (Codegen.decodeField s) draft =
      segments.foldlM (Codegen.decodeSegment s) draft
  /-- The windows of the generators are empty where that of the check is asked to be. -/
  encoderEmpty : ∀ front, s.Reaches front → ∃ draft : Codegen.EncoderDraft,
    front.foldlM (Codegen.encodeField s) { window := BitWindow.empty window } = .ok draft ∧
      draft.window.isEmpty = true
  decoderEmpty : ∀ front, s.Reaches front → ∃ draft : Codegen.DecoderDraft,
    front.foldlM (Codegen.decodeField s) { window := BitWindow.empty window } = .ok draft ∧
      draft.window.isEmpty = true

namespace Codegen.ReadyStruct

variable {window : Nat} {s : Struct} {segments : List Segment} {front : List Field}
  (ready : ReadyStruct window s)

include ready

/-- The generators have taken whole segments when they reach a field that is not packed, or the
end. -/
theorem segments_of_reaches (laid : layout window s = .ok segments) (reaches : s.Reaches front) :
    ∃ before : List Segment, before.flatMap Segment.fields = front ∧
      ∀ segment ∈ before, segment.Planned window ∧ ∀ field ∈ segment.fields, Ready s field := by
  have planned := layout_planned laid
  have fields := ready.fields
  rw [← (layout_fields laid).1] at fields
  obtain ⟨before, after, rfl, whole⟩ := reaches.segments laid
  refine ⟨before, whole, fun segment member => ?_⟩
  have listed : segment ∈ before ++ after := List.mem_append_left _ member
  exact ⟨planned segment listed,
    fun field inside => fields field (List.mem_flatMap.mpr ⟨segment, listed, inside⟩)⟩

theorem encoder_empty (narrow : window ≤ 64) (laid : layout window s = .ok segments)
    (reaches : s.Reaches front) :
    ∃ draft : EncoderDraft,
      front.foldlM (encodeField s) { window := BitWindow.empty window } = .ok draft ∧
        draft.window.isEmpty = true := by
  obtain ⟨before, rfl, each⟩ := ready.segments_of_reaches laid reaches
  have named : ∀ field ∈ before.flatMap Segment.fields, Named field.id := by
    intro field member
    obtain ⟨segment, listed, inside⟩ := List.mem_flatMap.mp member
    exact ((each segment listed).2 field inside).named
  rw [encodeFields_segments (fun segment member => (each segment member).1) named rfl]
  obtain ⟨draft, written⟩ : Succeeds (before.foldlM (encodeSegment s)
      { window := BitWindow.empty window }) := by
    refine .foldlM (fun segment member draft => ?_) _
    exact encodeSegment_succeeds (each segment member).1 narrow (each segment member).2 draft
  refine ⟨draft, written, ?_⟩
  rw [foldlM_keeps EncoderDraft.window (fun segment member _ _ =>
    encodeSegment_window (each segment member).1) written]
  rfl

theorem decoder_empty (narrow : window ≤ 64) (laid : layout window s = .ok segments)
    (reaches : s.Reaches front) :
    ∃ draft : DecoderDraft,
      front.foldlM (decodeField s) { window := BitWindow.empty window } = .ok draft ∧
        draft.window.isEmpty = true := by
  obtain ⟨before, rfl, each⟩ := ready.segments_of_reaches laid reaches
  rw [decodeFields_segments (fun segment member => (each segment member).1) rfl]
  obtain ⟨draft, read⟩ : Succeeds (before.foldlM (decodeSegment s)
      { window := BitWindow.empty window }) := by
    refine .foldlM (fun segment member draft => ?_) _
    exact decodeSegment_succeeds (each segment member).1 narrow (each segment member).2 draft
  refine ⟨draft, read, ?_⟩
  rw [foldlM_keeps DecoderDraft.window (fun segment member _ _ =>
    decodeSegment_window (each segment member).1) read]
  rfl

theorem plansAgree (narrow : window ≤ 64) (laid : layout window s = .ok segments)
    (ids : (s.fields.map Field.id).Nodup) : s.PlansAgree window segments := by
  obtain ⟨chunks, plans, same⟩ := Codec.layout_plans laid
  exact {
    fields := (layout_fields laid).1
    planned := layout_planned laid
    packed := fun field => Codec.packed_unique laid ids
    checked := fun key context => Builder.checkWindow_iff.mpr ⟨rfl, chunks, plans⟩
    chunks := ⟨chunks, plans, same⟩
    encoder := fun draft =>
      encodeFields_eq laid fun field member => (ready.fields field member).named
    decoder := fun draft => decodeFields_eq laid
    encoderEmpty := fun front => ready.encoder_empty narrow laid
    decoderEmpty := fun front => ready.decoder_empty narrow laid }

end Codegen.ReadyStruct

/-- Every unit of code is generated for an accepted document whose field names and descriptor kinds
are identifiers. The check of a structure, its encoder and its decoder close the same chunks, every
packed field is in one of them, and none is waiting when another field or the end is reached. -/
theorem generate_succeeds_of_analyze {document : Document} {window : Nat} {source : String}
    {model : Model} (accepted : analyze document window source = .ok model)
    (width : window ∈ windowWidths) (nameable : model.Nameable) :
    (∀ unit, ∃ code, Codegen.generate model unit window = .ok code) ∧
      ∀ s ∈ model.structs, ∃ segments,
        Codec.layout window s = .ok segments ∧ s.PlansAgree window segments := by
  have formed : model.WellFormed window :=
    { coherent_of_analyze accepted with names := names_of_analyze accepted }
  have made := made_of_analyze accepted
  have narrow : window ≤ 64 := by
    simp only [windowWidths, List.mem_cons, List.not_mem_nil, or_false] at width
    omega
  refine ⟨Codegen.generate_succeeds formed made nameable narrow, fun s member => ?_⟩
  obtain ⟨earlier, later, place⟩ := List.append_of_mem member
  have sound := formed.structs earlier s later place
  obtain ⟨segments, laid⟩ := sound.laid
  have ready := Codegen.readyStruct formed made nameable member
  exact ⟨segments, laid, ready.plansAgree narrow laid sound.fields.ids⟩

/-- The mode and the count of the sample packet share a chunk. -/
theorem generate_sample :
    sampleModel.Nameable ∧ (∀ unit, ∃ code, Codegen.generate sampleModel unit 32 = .ok code) ∧
      ∃ segments, Codec.layout 32 sampleStruct = .ok segments ∧
        sampleStruct.PlansAgree 32 segments ∧
        (segments.filterMap Codec.Segment.chunk?).map (fun shared => shared.fields.map fun packed =>
          (packed.symbol.id, packed.shift)) = [[("mode", 5), ("entry_count", 0)]] := by
  have nameable : sampleModel.Nameable := ⟨by decide +kernel, by decide +kernel⟩
  obtain ⟨generated, planned⟩ :=
    generate_succeeds_of_analyze analyze_sample (by decide) nameable
  obtain ⟨segments, laid, agree⟩ := planned sampleStruct sampleStruct_mem
  refine ⟨nameable, generated, segments, laid, agree, ?_⟩
  have shown : (Codec.layout 32 sampleStruct).toOption.map (fun segments =>
      (segments.filterMap Codec.Segment.chunk?).map fun shared => shared.fields.map fun packed =>
        (packed.symbol.id, packed.shift)) = some [[("mode", 5), ("entry_count", 0)]] := by
    decide +kernel
  rw [laid] at shown
  exact Option.some.inj shown

end PacketSpec
