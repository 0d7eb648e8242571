import PacketSpec.Codec.Decode
import PacketSpec.Codec.Encode
import PacketSpec.Proofs.Codegen.Widening

/-! The width of the window decides which documents are accepted and nothing else: the model, the
code generated for it and the bytes of its packets are those of every wider window. -/
namespace PacketSpec

open Codec

theorem meaningIn?_congr {α : Type} {one other : (String → Option α) → Struct → α}
    {structs : List Struct} (same : ∀ s ∈ structs, ∀ nested, one nested s = other nested s)
    (id : String) : meaningIn? one structs id = meaningIn? other structs id := by
  induction structs generalizing id with
  | nil => rfl
  | cons s earlier ih =>
    have before := funext (ih fun t member => same t (.tail _ member))
    rw [meaningIn?, meaningIn?, before, same s (.head _)]

section Codecs

variable {model : Model} {window wider : Nat}

/-- What is made of a structure's layout is the same in a wider window. -/
theorem Model.meaning_widen {α : Type} {meaning : Nat → (String → Option α) → Struct → α}
    (le : window ≤ wider)
    (laid : ∀ s ∈ model.structs, ∃ segments, layout window s = .ok segments)
    (same : ∀ nested s, layout wider s = layout window s →
      meaning wider nested s = meaning window nested s) (id : String) :
    model.meaning (meaning wider) id = model.meaning (meaning window) id := by
  unfold Model.meaning
  rw [meaningIn?_congr]
  intro s member nested
  obtain ⟨segments, known⟩ := laid s (List.mem_reverse.mp member)
  exact same nested s ((layout_widen le known).trans known.symm)

theorem decodeStruct_widen {nested : String → Option Decoder} {s : Struct}
    (same : layout wider s = layout window s) :
    decodeStruct model wider nested s = decodeStruct model window nested s := by
  rw [decodeStruct, decodeStruct, same]

theorem encodeStruct_widen {nested : String → Option Encoder} {s : Struct}
    (same : layout wider s = layout window s) :
    encodeStruct wider nested s = encodeStruct window nested s := by
  funext value
  cases value with
  | record record => rw [encodeStruct, encodeStruct, same]
  | _ => rfl

theorem structSize_widen {nested : String → Option Measure} {s : Struct}
    (same : layout wider s = layout window s) :
    structSize wider nested s = structSize window nested s := by
  funext value
  cases value with
  | record record => rw [structSize, structSize, same]
  | _ => rfl

end Codecs

/-- All that is made of a model is the same in two windows. -/
structure Model.SameIn (model : Model) (window other : Nat) : Prop where
  units : ∀ unit, Codegen.generate model unit other = Codegen.generate model unit window
  modules : Codegen.generateModules model other = Codegen.generateModules model window
  decodeFrom : model.decodeFrom other = model.decodeFrom window
  decode : model.decode other = model.decode window
  encodedSize : model.encodedSize other = model.encodedSize window
  encode : model.encode other = model.encode window
  encodeToBytes : model.encodeToBytes other = model.encodeToBytes window

theorem Model.sameIn_of_laid {model : Model} {window wider : Nat} (le : window ≤ wider)
    (laid : ∀ s ∈ model.structs, ∃ segments, layout window s = .ok segments) :
    model.SameIn window wider := by
  have units := Codegen.generate_widen le laid
  have decoders : model.decoder wider = model.decoder window :=
    funext fun id => Model.meaning_widen le laid (fun _ _ => decodeStruct_widen) id
  have sizes : model.encodedSize wider = model.encodedSize window := by
    funext id value
    rw [Model.encodedSize, Model.encodedSize,
      Model.meaning_widen le laid fun _ _ => structSize_widen]
  have encoders : model.encode wider = model.encode window := by
    funext id value
    rw [Model.encode, Model.encode, Model.meaning_widen le laid fun _ _ => encodeStruct_widen]
  refine ⟨units, ?_, ?_, ?_, sizes, encoders, ?_⟩
  · simp only [Codegen.generateModules, units]
  · funext id
    rw [Model.decodeFrom, Model.decodeFrom, decoders]
  · funext id buffer
    rw [Model.decode, Model.decode, decoders]
  · funext id value
    rw [Model.encodeToBytes, Model.encodeToBytes, sizes, encoders]

/-- A document that is accepted in a window is accepted in every wider one as the same model, for
which the same code is generated and whose packets have the same bytes. -/
theorem window_decides_acceptance_only {document : Document} {source : String} {model : Model}
    {window wider : Nat} (le : window ≤ wider)
    (accepted : analyze document window source = .ok model) :
    analyze document wider source = .ok model ∧ model.SameIn window wider := by
  refine ⟨analyze_of_le le accepted, Model.sameIn_of_laid le fun s member => ?_⟩
  obtain ⟨earlier, later, place⟩ := List.append_of_mem member
  exact ((coherent_of_analyze accepted).structs earlier s later place).laid

theorem sample_in_wider_window :
    analyze sampleDocument 32 "sample" = .ok sampleModel ∧
      analyze sampleDocument 64 "sample" = .ok sampleModel ∧ sampleModel.SameIn 32 64 :=
  ⟨analyze_sample, window_decides_acceptance_only (by decide) analyze_sample⟩

end PacketSpec
