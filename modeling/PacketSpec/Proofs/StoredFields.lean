import PacketSpec.Proofs.Codec.Reencoding
import PacketSpec.Proofs.Codegen.HeldFields
import PacketSpec.Proofs.Codegen.Units

/-! The stored fields of a structure in the order of its generated type. The type, its default, its
decoder and its encoder each decide anew which fields there are, and agree. -/
namespace PacketSpec

open Builder Codegen

/-- The list has every stored field once: the descriptor, the sequence number, then the others in
order. -/
structure Struct.Hoists (s : Struct) (listed : List Field) : Prop where
  perm : listed.Perm (s.fields.filter Field.isStored)
  ids : (listed.map Field.id).Nodup
  order : ∃ others, listed = (s.descriptorField?.filter Field.isStored).toList ++
    s.seqField?.toList ++ others ∧ others.Sublist s.fields

theorem hoists_storedFields {s : Struct} {model : Model} {earlier : List Struct}
    (formed : WellFormedFields model earlier s.fields) : s.Hoists s.storedFields where
  perm := by
    have once := Codec.nodup_storedFields formed.ids formed.each
    apply (List.perm_ext_iff_of_nodup once.of_map (formed.ids.of_map.filter _)).mpr
    intro field
    rw [List.mem_filter]
    constructor
    · exact Codec.mem_storedFields
    · rintro ⟨member, stored⟩
      exact Codec.mem_storedFields_of_mem member stored
  ids := Codec.nodup_storedFields formed.ids formed.each
  order := ⟨_, rfl, List.filter_sublist⟩

def Struct.storedNames (s : Struct) : List String :=
  s.storedFields.map fun field => escaped field.id

def Struct.payloadNames (s : Struct) : List String :=
  s.payloadField?.toList.map fun field => escaped field.id

/-- The stored fields as they are declared, defaulted, decoded and encoded. -/
structure Struct.ViewsAgree (s : Struct) (model : Model) (window : Nat) : Prop where
  type : ∀ decl, structDecl s = .ok decl →
    fieldNames decl = s.storedNames ∧ initialNames decl = s.storedNames
  decoder : ∀ reader, decodeImpl model window s = .ok reader →
    initialNames reader = s.storedNames ∧
      (localNames reader).Perm (s.storedNames ++ s.payloadNames)
  encoder : ∀ writer, encodeImpl window s = .ok writer →
    ∀ name, name ∈ readNames writer ↔ name ∈ s.storedNames

theorem boundFor_perm (fields : List Field) :
    (fields.flatMap boundFor).Perm
      ((fields.filter Field.isStored).map (fun field => escaped field.id) ++
        (fields.filter (·.shape == .payload)).map fun field => escaped field.id) := by
  induction fields with
  | nil => exact .nil
  | cons field rest ih =>
    rw [List.flatMap_cons]
    by_cases stored : field.isStored = true
    · have header : (field.shape == .payload) = false := by
        simp only [Field.isStored, Bool.and_eq_true] at stored
        simpa using stored.2
      rw [boundFor_of_stored stored, List.filter_cons_of_pos stored,
        List.filter_cons_of_neg (by simp [header])]
      exact ih.cons _
    · rw [List.filter_cons_of_neg stored]
      by_cases payload : (field.shape == .payload) = true
      · have bound : boundFor field = [escaped field.id] := by simp [boundFor, payload]
        rw [bound, List.filter_cons_of_pos (by simpa using payload)]
        exact (ih.cons _).trans List.perm_middle.symm
      · have free : boundFor field = [] := by simp [boundFor, stored, payload]
        rw [free, List.filter_cons_of_neg (by simpa using payload)]
        exact ih

/-- A structure has at most one payload. -/
theorem payloads_eq {s : Struct} (single : s.fields.countP (·.shape == .payload) ≤ 1) :
    s.fields.filter (·.shape == .payload) = s.payloadField?.toList := by
  rw [Struct.payloadField?, ← List.head?_filter]
  rw [List.countP_eq_length_filter] at single
  cases payloads : s.fields.filter (·.shape == .payload) with
  | nil => rfl
  | cons first rest =>
    rw [payloads, List.length_cons] at single
    rw [List.eq_nil_of_length_eq_zero (Nat.le_zero.mp (Nat.le_of_succ_le_succ single))]
    rfl

theorem boundFor_perm_names {s : Struct} {model : Model} {earlier : List Struct}
    (formed : WellFormedFields model earlier s.fields) :
    (s.fields.flatMap boundFor).Perm (s.storedNames ++ s.payloadNames) := by
  have bound := boundFor_perm s.fields
  have hoisted := (hoists_storedFields formed).perm.symm.map fun field => escaped field.id
  rw [payloads_eq formed.payload] at bound
  exact bound.trans (hoisted.append_right _)

theorem viewsAgree {s : Struct} {model : Model} {window : Nat} {earlier : List Struct}
    (formed : s.WellFormed window model earlier) (apart : ∀ field ∈ s.fields, Apart field) :
    s.ViewsAgree model window where
  type decl generated :=
    ⟨fieldNames_structDecl generated, initialNames_structDecl generated⟩
  decoder reader generated := by
    obtain ⟨segments, laid⟩ := formed.laid
    refine ⟨initialNames_decodeImpl generated, ?_⟩
    rw [localNames_decodeImpl laid formed.fields.each apart generated]
    exact boundFor_perm_names formed.fields
  encoder writer generated name := by
    have offers : ∀ field ∈ s.fields, field.isStored = true → escaped field.id ∈ s.storedNames :=
      fun field member stored =>
        List.mem_map_of_mem (Codec.mem_storedFields_of_mem member stored)
    obtain ⟨needed, within⟩ := readNames_encodeImpl formed offers generated
    refine ⟨fun read => within read, fun listed => needed ?_⟩
    obtain ⟨field, member, rfl⟩ := List.mem_map.mp listed
    obtain ⟨inside, stored⟩ := Codec.mem_storedFields member
    exact List.mem_flatMap.mpr ⟨field, inside, by simp [heldFor, stored]⟩

/-- Every structure of an accepted document lists each of its stored fields once. Its type, the
default and the constructor call of its decoder have just these, in the same order. The decoder
binds them and the payload, and the encoder reads them all and no other. -/
theorem stored_fields_agree {document : Document} {window : Nat} {source : String} {model : Model}
    (accepted : analyze document window source = .ok model) {s : Struct}
    (member : s ∈ model.structs) :
    s.Hoists s.storedFields ∧ s.ViewsAgree model window ∧
      (window ∈ windowWidths → model.Nameable → Succeeds (structDecl s) ∧
        Succeeds (decodeImpl model window s) ∧ Succeeds (encodeImpl window s)) := by
  have formed : model.WellFormed window :=
    { coherent_of_analyze accepted with names := names_of_analyze accepted }
  obtain ⟨earlier, later, place⟩ := List.append_of_mem member
  have sound := formed.structs earlier s later place
  refine ⟨hoists_storedFields sound.fields, viewsAgree sound (apart_of_analyze accepted member), ?_⟩
  intro width nameable
  have narrow : window ≤ 64 := by
    simp only [windowWidths, List.mem_cons, List.not_mem_nil, or_false] at width
    omega
  have ready := readyStruct formed (made_of_analyze accepted) nameable member
  exact ⟨ready.structDecl_succeeds, ready.decodeImpl_succeeds narrow model,
    ready.encodeImpl_succeeds narrow⟩

/-- The sequence number of the sample packet is listed first, since its descriptor is fixed. The
decoder binds the payload besides. -/
theorem sample_stored_fields_agree :
    sampleStruct.Hoists sampleStruct.storedFields ∧
      sampleStruct.storedNames =
        ["global_seq", "mode", "entry_count", "entries", "peer_descriptor", "data_length"] ∧
      sampleStruct.payloadNames = ["data"] ∧
      (∃ decl, structDecl sampleStruct = .ok decl ∧ fieldNames decl = sampleStruct.storedNames ∧
        initialNames decl = sampleStruct.storedNames) ∧
      (∃ reader, decodeImpl sampleModel 32 sampleStruct = .ok reader ∧
        initialNames reader = sampleStruct.storedNames ∧
        (localNames reader).Perm (sampleStruct.storedNames ++ sampleStruct.payloadNames)) ∧
      ∃ writer, encodeImpl 32 sampleStruct = .ok writer ∧
        ∀ name, name ∈ readNames writer ↔ name ∈ sampleStruct.storedNames := by
  have nameable : sampleModel.Nameable := ⟨by decide +kernel, by decide +kernel⟩
  obtain ⟨hoists, views, succeeds⟩ := stored_fields_agree analyze_sample sampleStruct_mem
  obtain ⟨⟨decl, declared⟩, ⟨reader, decoded⟩, writer, encoded⟩ := succeeds (by decide) nameable
  exact ⟨hoists, by decide, by decide, ⟨decl, declared, views.type decl declared⟩,
    ⟨reader, decoded, views.decoder reader decoded⟩, writer, encoded, views.encoder writer encoded⟩

end PacketSpec
