import PacketSpec.Codegen.Unit
import PacketSpec.Proofs.Codec.RoundTrip
import PacketSpec.Proofs.Codegen.Declared
import PacketSpec.Proofs.Codegen.Units

/-! Whether the names that generated code declares in one scope differ. They do for the fields of a
structure and the variants of an enumeration. Of the constants of the descriptor type, the one that
marks 8-bit descriptors can meet that of a kind, since kinds are compared with each other only. -/
namespace PacketSpec

open Builder Codegen

theorem kinds_of_analyze {document : Document} {window : Nat} {source : String} {model : Model}
    (accepted : analyze document window source = .ok model) :
    (model.descriptors.entries.map Prod.fst).Nodup := by
  obtain ⟨context, run, rfl, -⟩ := analyze_eq_ok accepted
  have changes : Changes (Context.new source) context :=
    (buildAll_evolves document window).of_run run
  exact (changes.consistent (consistent_new source)).kinds

namespace Codegen

theorem nodup_escaped {names : List String} (distinct : names.Nodup)
    (simple : ∀ name ∈ names, Text.IsSimple name) : (names.map escaped).Nodup :=
  distinct.map_on fun one first other second same =>
    escaped_injective (simple one first) (simple other second) same

theorem nodup_shoutingCase {names : List String} (distinct : names.Nodup)
    (snake : ∀ name ∈ names, Text.IsSnake name) : (names.map Text.shoutingCase).Nodup :=
  distinct.map_on fun one first other second same =>
    Text.shoutingCase_injective (snake one first) (snake other second) same

theorem infix_flatten {part : Code} {parts : List Code} (member : part ∈ parts) :
    part <:+: parts.flatten := by
  obtain ⟨front, back, rfl⟩ := List.append_of_mem member
  exact ⟨front.flatten, back.flatten, by simp⟩

structure DataNames (model : Model) (text : Code) : Prop where
  fields : ∀ s ∈ model.structs, ∃ decl, structDecl s = .ok decl ∧ decl <:+: text ∧
    fieldNames decl = s.storedFields.map (fun field => escaped field.id) ∧ (fieldNames decl).Nodup
  packets : ∃ decl, packetUnion model = .ok decl ∧ decl <:+: text ∧
    variantNames decl = model.toplevel.map (fun s => escaped s.id) ∧ (variantNames decl).Nodup

structure EnumNames (model : Model) (text : Code) : Prop where
  variants : ∀ e ∈ model.enums, ∃ decl, enumDecl e = .ok decl ∧ decl <:+: text ∧
    variantNames decl = e.members.map (fun member => escaped member.id) ++ ["Unknown"] ∧
    (variantNames decl).Nodup
  constants : ∃ decl, descriptorDecl model = .ok decl ∧ decl <:+: text ∧
    constantNames decl = "FLAG_LSB_BITMASK" ::
      model.descriptors.entries.map (fun entry => Text.shoutingCase entry.1) ∧
    ((constantNames decl).Nodup ↔
      "flag_lsb_bitmask" ∉ model.descriptors.entries.map Prod.fst)

variable {model : Model}

theorem nodup_fieldNames {window : Nat} {earlier : List Struct} {s : Struct} {decl : Code}
    (formed : s.WellFormed window model earlier) (made : s.Made)
    (generated : structDecl s = .ok decl) : (fieldNames decl).Nodup := by
  have distinct := Codec.nodup_storedFields formed.fields.ids formed.fields.each
  rw [fieldNames_structDecl generated]
  have names : (s.storedFields.map Field.id).map escaped =
      s.storedFields.map fun field => escaped field.id := List.map_map
  rw [← names]
  apply nodup_escaped distinct
  intro name member
  obtain ⟨field, stored, rfl⟩ := List.mem_map.mp member
  exact made.fieldIds field (Codec.mem_storedFields stored).1

theorem nodup_packetNames (made : model.Made) (names : (model.structs.map Struct.id).Nodup)
    {decl : Code} (generated : packetUnion model = .ok decl) : (variantNames decl).Nodup := by
  rw [variantNames_packetUnion generated]
  have mapped : (model.toplevel.map Struct.id).map escaped =
      model.toplevel.map fun s => escaped s.id := List.map_map
  rw [← mapped]
  apply nodup_escaped
  · exact names.sublist (List.filter_sublist.map Struct.id)
  · intro name member
    obtain ⟨s, top, rfl⟩ := List.mem_map.mp member
    exact (made.structs s (List.mem_of_mem_filter top)).simpleId

theorem nodup_memberNames {e : Enum} (formed : e.WellFormed) (made : e.Made) {decl : Code}
    (generated : enumDecl e = .ok decl) : (variantNames decl).Nodup := by
  have unknown : escaped "Unknown" = "Unknown" := rfl
  have plain : Text.IsSimple "Unknown" := Text.isSimple_of_alphanum (by simp)
  have names : (e.members.map EnumMember.id ++ ["Unknown"]).map escaped =
      (e.members.map fun member => escaped member.id) ++ ["Unknown"] := by
    rw [List.map_append, List.map_map, List.map_singleton, unknown]
    rfl
  rw [variantNames_enumDecl generated, ← names]
  apply nodup_escaped
  · apply nodup_concat formed.ids
    intro taken
    obtain ⟨member, listed, same⟩ := List.mem_map.mp taken
    exact formed.known member listed same
  · apply forall_concat _ plain
    intro name listed
    obtain ⟨member, inside, rfl⟩ := List.mem_map.mp listed
    exact (made.members member inside).simpleId

/-- The constant of one kind is the one that the type has anyway. -/
theorem nodup_constantNames_iff (made : model.Made)
    (kinds : (model.descriptors.entries.map Prod.fst).Nodup) {decl : Code}
    (generated : descriptorDecl model = .ok decl) :
    (constantNames decl).Nodup ↔ "flag_lsb_bitmask" ∉ model.descriptors.entries.map Prod.fst := by
  have snake : ∀ kind ∈ model.descriptors.entries.map Prod.fst, Text.IsSnake kind := by
    intro kind listed
    obtain ⟨entry, inside, rfl⟩ := List.mem_map.mp listed
    exact made.isSnake inside
  have flag : Text.IsSnake "flag_lsb_bitmask" := by
    have same : Text.snakeCase "flag_lsb_bitmask" = "flag_lsb_bitmask" := rfl
    rw [← same]
    exact Text.isSnake_snakeCase _
  have shouted : Text.shoutingCase "flag_lsb_bitmask" = "FLAG_LSB_BITMASK" := rfl
  have names : (model.descriptors.entries.map Prod.fst).map Text.shoutingCase =
      model.descriptors.entries.map fun entry => Text.shoutingCase entry.1 := List.map_map
  rw [constantNames_descriptorDecl generated, ← names, List.nodup_cons]
  constructor
  · rintro ⟨unlisted, -⟩ taken
    apply unlisted
    rw [← shouted]
    exact List.mem_map_of_mem taken
  · intro free
    refine ⟨?_, nodup_shoutingCase kinds snake⟩
    intro taken
    obtain ⟨kind, listed, same⟩ := List.mem_map.mp taken
    rw [← shouted] at same
    exact free (Text.shoutingCase_injective (snake kind listed) flag same ▸ listed)

theorem dataNames {window width : Nat} {text : Code} (formed : model.WellFormed window)
    (made : model.Made) (generated : generate model .data width = .ok text) :
    DataNames model text := by
  simp only [generate, items, dataUnit, bind_eq_ok, pure_eq_ok] at generated
  obtain ⟨_, ⟨structs, declared, union, united, rfl⟩, rfl⟩ := generated
  constructor
  · intro s member
    obtain ⟨earlier, later, place⟩ := List.append_of_mem member
    obtain ⟨decl, listed, given⟩ := exists_of_mapM declared member
    have inside : structs.flatten <:+: preamble model.source .data ++
        (structs.flatten ++ union ++ headerSizeLookup model) :=
      ⟨preamble model.source .data, union ++ headerSizeLookup model, by simp⟩
    have distinct := nodup_fieldNames (formed.structs earlier s later place)
      (made.structs s member) given
    exact ⟨decl, given, (infix_flatten listed).trans inside, fieldNames_structDecl given, distinct⟩
  · have names := (List.nodup_append.mp formed.names).2.1
    have distinct := nodup_packetNames made names united
    refine ⟨union, united, ?_, variantNames_packetUnion united, distinct⟩
    exact ⟨preamble model.source .data ++ structs.flatten, headerSizeLookup model, by simp⟩

theorem enumNames {window width : Nat} {text : Code} (formed : model.WellFormed window)
    (made : model.Made) (kinds : (model.descriptors.entries.map Prod.fst).Nodup)
    (generated : generate model .enums width = .ok text) : EnumNames model text := by
  simp only [generate, items, enumsUnit, bind_eq_ok, pure_eq_ok] at generated
  obtain ⟨_, ⟨descriptor, described, enums, declared, rfl⟩, rfl⟩ := generated
  constructor
  · intro e member
    obtain ⟨decl, listed, given⟩ := exists_of_mapM declared member
    have distinct := nodup_memberNames (formed.enums e member) (made.enums e member) given
    refine ⟨decl, given, ?_, variantNames_enumDecl given, distinct⟩
    apply (infix_flatten listed).trans
    exact ((List.suffix_append _ _).trans (List.suffix_append _ _)).isInfix
  · refine ⟨descriptor, described, ?_, constantNames_descriptorDecl described,
      nodup_constantNames_iff made kinds described⟩
    apply List.IsInfix.trans _ (List.suffix_append _ _).isInfix
    exact (List.suffix_append _ _).isInfix.trans (List.prefix_append _ _).isInfix

end Codegen

/-- Every unit declares the names of its scopes once, but for the constants of the descriptor type,
which clash exactly where a kind is called like the mark of 8-bit descriptors. -/
theorem declared_names_differ {document : Document} {window : Nat} {source : String}
    {model : Model} (accepted : analyze document window source = .ok model) :
    (∀ width text, generate model .data width = .ok text → DataNames model text) ∧
      ∀ width text, generate model .enums width = .ok text → EnumNames model text := by
  have formed : model.WellFormed window :=
    { coherent_of_analyze accepted with names := names_of_analyze accepted }
  have made := made_of_analyze accepted
  constructor
  · exact fun width text generated => dataNames formed made generated
  · exact fun width text generated => enumNames formed made (kinds_of_analyze accepted) generated

/-- The sample packet and its enumeration. -/
theorem sample_names_differ :
    (∃ text, generate sampleModel .data 32 = .ok text ∧ DataNames sampleModel text) ∧
      ∃ text, generate sampleModel .enums 32 = .ok text ∧ EnumNames sampleModel text ∧
        "flag_lsb_bitmask" ∉ sampleModel.descriptors.entries.map Prod.fst := by
  obtain ⟨data, enums⟩ := declared_names_differ analyze_sample
  have generated : Succeeds (generate sampleModel .data 32) ∧
      Succeeds (generate sampleModel .enums 32) := by
    decide +kernel
  obtain ⟨⟨text, first⟩, other, second⟩ := generated
  exact ⟨⟨text, first, data 32 text first⟩, other, second, enums 32 other second, by decide⟩

/-- A packet whose kind is called like the mark of 8-bit descriptors. -/
def flagDocument : Document where
  ranges := [⟨"'0x0001'", ""⟩]
  structs := [("0x0001", [⟨"u(16)", "flag_lsb_bitmask_descriptor", "'0x0001'"⟩])]

def flagModel : Model where
  source := "test"
  structs := [{
    key := "0x0001"
    id := "FlagLsbBitmask"
    kind := "flag_lsb_bitmask"
    role := .packet
    fields := [⟨"flag_lsb_bitmask_descriptor", .descriptor, 16, .none, some 1, false⟩]
    sizeBits := 16
    descriptor := some 1 }]
  descriptors := ⟨[("flag_lsb_bitmask", 1)]⟩

/-- The document is accepted, and its descriptor type has two constants of one name. -/
theorem flagDocument_names_clash :
    analyze flagDocument 32 "test" = .ok flagModel ∧
      ∃ text decl, generate flagModel .enums 32 = .ok text ∧ descriptorDecl flagModel = .ok decl ∧
        decl <:+: text ∧ constantNames decl = ["FLAG_LSB_BITMASK", "FLAG_LSB_BITMASK"] := by
  have accepted : analyze flagDocument 32 "test" = .ok flagModel :=
    ok_of_toOption (by decide +kernel)
  have formed : flagModel.WellFormed 32 :=
    { coherent_of_analyze accepted with names := names_of_analyze accepted }
  obtain ⟨text, generated⟩ : Succeeds (generate flagModel .enums 32) := by decide +kernel
  obtain ⟨decl, given, inside, names, -⟩ := (enumNames formed (made_of_analyze accepted)
    (kinds_of_analyze accepted) generated).constants
  refine ⟨accepted, text, decl, generated, given, inside, ?_⟩
  rw [names]
  decide +kernel

end PacketSpec
