import PacketSpec.Proofs.Codec.RoundTrip
import PacketSpec.Proofs.Codegen.Totality
import PacketSpec.Proofs.Reached

/-! Code is generated for every unit of a model whose names have tokens. -/
namespace PacketSpec

structure Model.Nameable (model : Model) : Prop where
  fields : ∀ s ∈ model.structs, ∀ field ∈ s.fields,
    Codegen.isIdentChars field.id.toList = true
  kinds : ∀ entry ∈ model.descriptors.entries, Codegen.isIdentChars entry.1.toList = true

/-- Kinds in the descriptor table come from structures, with code or by template. -/
theorem Model.Made.isSnake {model : Model} (made : model.Made) {entry : String × Nat}
    (member : entry ∈ model.descriptors.entries) : Text.IsSnake entry.1 := by
  rcases List.mem_append.mp (made.descriptors.mem_iff.mp member) with own | templated
  · obtain ⟨s, inside, registers⟩ := List.mem_filterMap.mp own
    obtain ⟨code, -, rfl⟩ := Option.map_eq_some_iff.mp registers
    exact (made.structs s inside).kind
  · obtain ⟨t, inside, rfl⟩ := List.mem_map.mp templated
    exact (made.templated t inside).1.kind

/-- A structure with a descriptor code is in the descriptor table. -/
theorem Model.Made.registered {model : Model} (made : model.Made) {s : Struct} {code : Nat}
    (member : s ∈ model.structs) (coded : s.descriptor = some code) :
    (s.kind, code) ∈ model.descriptors.entries := by
  refine made.descriptors.mem_iff.mpr (List.mem_append_left _ ?_)
  exact List.mem_filterMap.mpr ⟨s, member, by rw [Struct.registration, coded]; rfl⟩

namespace Codegen

open Codec (layout layout_fields layout_planned)

theorem named_of_isIdentifier {name : String} (valid : Text.isIdentifier name = true) :
    Named name :=
  named_of_isIdentChars (isIdentChars_of_isIdentifier valid)

theorem decoderCount_ok {s : Struct} {index : Nat}
    (known : ∃ count, encoderCount s index = .ok count) :
    ∃ count, decoderCount s index = .ok count := by
  obtain ⟨_, known⟩ := known
  unfold encoderCount at known
  split at known
  · cases known
  · next field found =>
    cases fixed : field.fixed with
    | some value => exact ⟨_, by simp [decoderCount, found, fixed]; rfl⟩
    | none =>
      rw [fixed] at known
      obtain ⟨name, spelled, -⟩ := bind_eq_ok.mp known
      exact ⟨_, by simp [decoderCount, found, fixed, spelled, bind, Except.bind]; rfl⟩

structure ReadyStruct (window : Nat) (s : Struct) : Prop where
  named : Named s.id
  fields : ∀ field ∈ s.fields, Ready s field
  laid : ∃ segments, layout window s = .ok segments
  kind : ∀ code, s.descriptor = some code → Succeeds (kindConstant s.kind)

theorem readyStruct {model : Model} {window : Nat} {s : Struct} (formed : model.WellFormed window)
    (made : model.Made) (nameable : model.Nameable) (member : s ∈ model.structs) :
    ReadyStruct window s := by
  obtain ⟨earlier, later, place⟩ := List.append_of_mem member
  have sound := formed.structs earlier s later place
  have named : ∀ field ∈ s.fields, Named field.id := fun field inside =>
    named_of_isIdentChars (nameable.fields s member field inside)
  refine ⟨named_of_isIdentifier (made.structs s member).id, fun field inside => ?_, sound.laid,
    fun code coded => ?_⟩
  · exact {
      formed := sound.fields.each field inside
      measured := (made.structs s member).fields field inside
      named := named field inside
      counted := fun index => encoderCount_ok sound.fields named inside
      decodable := fun index repetition =>
        decoderCount_ok (encoderCount_ok sound.fields named inside repetition)
      structs := by
        intro typeId shape
        obtain ⟨-, nested, before, rfl, -⟩ := sound.fields.structs field inside typeId shape
        exact named_of_isIdentifier (made.structs nested (by simp [place, before])).id
      enums := by
        intro typeId shape
        obtain ⟨e, listed, rfl, -⟩ := sound.fields.enums field inside typeId shape
        exact named_of_isIdentifier (made.enums e listed).id }
  · exact kindConstant_succeeds (made.structs s member).kind
      (nameable.kinds _ (made.registered member coded))

namespace ReadyStruct

variable {window : Nat} {s : Struct} (ready : ReadyStruct window s)

include ready

theorem stored {field : Field} (member : field ∈ s.storedFields) :
    Ready s field ∧ field.isStored = true := by
  obtain ⟨inside, stored⟩ := Codec.mem_storedFields member
  exact ⟨ready.fields field inside, stored⟩

theorem encodeImpl_succeeds (narrow : window ≤ 64) : Succeeds (encodeImpl window s) := by
  obtain ⟨segments, laid⟩ := ready.laid
  have fields := ready.fields
  refine Succeeds.bind ?_ fun _ _ => (ident_succeeds ready.named).bind fun _ _ => .pure _
  rw [encodeFields_eq laid (fun field member => (fields field member).named) rfl]
  rw [← (layout_fields laid).1] at fields
  refine .foldlM (fun segment member draft => ?_) _
  refine encodeSegment_succeeds (layout_planned laid segment member) narrow ?_ draft
  exact fun field inside => fields field (List.mem_flatMap.mpr ⟨segment, member, inside⟩)

theorem constructor_succeeds (name : Code) : Succeeds (constructor s name) :=
  (Succeeds.mapM fun _ member => ident_succeeds (ready.stored member).1.named).bind
    fun _ _ => .pure _

theorem decodeImpl_succeeds (narrow : window ≤ 64) (model : Model) :
    Succeeds (decodeImpl model window s) := by
  obtain ⟨segments, laid⟩ := ready.laid
  have fields := ready.fields
  refine Succeeds.bind ?_ fun draft _ => ?_
  · rw [decodeFields_eq laid rfl]
    rw [← (layout_fields laid).1] at fields
    refine .foldlM (fun segment member draft => ?_) _
    refine decodeSegment_succeeds (layout_planned laid segment member) narrow ?_ draft
    exact fun field inside => fields field (List.mem_flatMap.mpr ⟨segment, member, inside⟩)
  · refine (ident_succeeds ready.named).bind fun name _ => ?_
    refine (ready.constructor_succeeds name).bind fun _ _ => ?_
    split
    · exact .pure _
    · exact .pure _

theorem structDecl_succeeds : Succeeds (structDecl s) := by
  -- The types are generated from the result of the first pass, which must be known for that.
  have idents : (s.storedFields.mapM fun field => do return (← ident field.id, field)) =
      .ok (s.storedFields.map fun field => (identOf field.id, field)) := by
    refine Codec.mapM_eq_ok fun field member => ?_
    have named := (ready.stored member).1.named
    rw [Named] at named
    rw [named]
    rfl
  refine (ident_succeeds ready.named).bind fun name _ => ?_
  refine Succeeds.bind ⟨_, idents⟩ fun fields known => ?_
  obtain rfl := Except.ok.inj (idents.symm.trans known)
  refine Succeeds.bind (.mapM fun entry member => ?_) fun declared _ => ?_
  · obtain ⟨field, inside, rfl⟩ := List.mem_map.mp member
    obtain ⟨own, stored⟩ := ready.stored inside
    exact (own.fieldType_succeeds stored).bind fun _ _ => .pure _
  · dsimp only
    split
    · next code coded =>
      exact (ready.kind code coded).bind fun _ _ => .bind (.pure _) fun _ _ => .pure _
    · exact .pure _

theorem descriptorArm_succeeds : Succeeds (descriptorArm s) := by
  refine (ident_succeeds ready.named).bind fun name _ => ?_
  dsimp only
  split
  · exact .pure _
  · next field _ found =>
    obtain ⟨known, -⟩ := Option.filter_eq_some_iff.mp found
    have named := (ready.fields field (List.mem_of_find?_eq_some known)).named
    exact (ident_succeeds named).bind fun _ _ => .pure _
  · exact .pure _

theorem seqArm_succeeds : Succeeds (seqArm s) := by
  refine (ident_succeeds ready.named).bind fun name _ => ?_
  split
  · next field found =>
    have named := (ready.fields field (List.mem_of_find?_eq_some found)).named
    exact (ident_succeeds named).bind fun _ _ => .pure _
  · exact .pure _

end ReadyStruct

theorem enumDecl_succeeds {e : Enum} (made : e.Made) : Succeeds (enumDecl e) := by
  refine (ident_succeeds (named_of_isIdentifier made.id)).bind fun name _ => ?_
  refine Succeeds.bind (.mapM fun member listed => ?_) fun members _ => .pure _
  exact (ident_succeeds (named_of_isIdentifier (made.members member listed).id)).bind
    fun _ _ => .pure _

theorem descriptorDecl_succeeds {model : Model}
    (kinds : ∀ entry ∈ model.descriptors.entries, Succeeds (kindConstant entry.1)) :
    Succeeds (descriptorDecl model) := by
  refine Succeeds.bind (.mapM fun entry member => ?_) fun constants _ => ?_
  · exact (kinds entry member).bind fun _ _ => .pure _
  · refine Succeeds.bind (.mapM fun entry member => ?_) fun names _ => .pure _
    exact (kinds entry member).bind fun _ _ => .pure _

theorem packetUnion_succeeds {model : Model} {window : Nat}
    (ready : ∀ s ∈ model.structs, ReadyStruct window s) : Succeeds (packetUnion model) := by
  have packets : ∀ s ∈ model.toplevel, ReadyStruct window s :=
    fun s member => ready s (List.mem_filter.mp member).1
  refine Succeeds.bind (.mapM fun s member => ident_succeeds (packets s member).named) fun _ _ => ?_
  refine Succeeds.bind (.mapM fun s member => (packets s member).descriptorArm_succeeds)
    fun _ _ => ?_
  exact Succeeds.bind (.mapM fun s member => (packets s member).seqArm_succeeds) fun _ _ => .pure _

/-- Every unit of the code of a model can be generated. -/
theorem generate_succeeds {model : Model} {window : Nat} (formed : model.WellFormed window)
    (made : model.Made) (nameable : model.Nameable) (narrow : window ≤ 64) (unit : CodeUnit) :
    Succeeds (generate model unit window) := by
  have ready : ∀ s ∈ model.structs, ReadyStruct window s :=
    fun s member => readyStruct formed made nameable member
  refine Succeeds.bind ?_ fun _ _ => .pure _
  cases unit with
  | enums =>
    refine Succeeds.bind (descriptorDecl_succeeds fun entry member => ?_) fun _ _ => ?_
    · exact kindConstant_succeeds (made.isSnake member) (nameable.kinds entry member)
    · exact Succeeds.bind (.mapM fun e member => enumDecl_succeeds (made.enums e member))
        fun _ _ => .pure _
  | data =>
    refine Succeeds.bind (.mapM fun s member => (ready s member).structDecl_succeeds) fun _ _ => ?_
    exact (packetUnion_succeeds ready).bind fun _ _ => .pure _
  | encoder => exact .map _ (.mapM fun s member => (ready s member).encodeImpl_succeeds narrow)
  | decoder =>
    exact .map _ (.mapM fun s member => (ready s member).decodeImpl_succeeds narrow model)

end Codegen

end PacketSpec
