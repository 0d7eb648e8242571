import PacketSpec.Analysis
import PacketSpec.Proofs.Builder.Table

/-! The model of every accepted document is well formed: all that writing and reading packets
assume of its structures holds, and no two types share a name. -/
namespace PacketSpec

open Builder

theorem forM_builds {α : Type} {window : Nat} {items : List α} {step : α → Build Unit}
    (each : ∀ item, Builds window (step item) fun _ _ => True) :
    Builds window (items.forM step) fun _ _ => True := by
  intro before u after valid run
  induction items generalizing before with
  | nil =>
    obtain ⟨rfl, rfl⟩ := yields_pure.mp run
    exact ⟨valid, .refl _, trivial⟩
  | cons item rest ih =>
    obtain ⟨_, middle, first, run⟩ := yields_bind.mp run
    obtain ⟨valid, grows, -⟩ := each item valid first
    obtain ⟨valid, more, -⟩ := ih valid run
    exact ⟨valid, grows.trans more, trivial⟩

theorem buildTemplate_builds (document : Document) (window : Nat) (template : TemplateRow) :
    Builds window (buildTemplate document window template) fun _ _ => True := by
  intro before _ after valid run
  simp only [buildTemplate, yields_bind, yields_readable] at run
  obtain ⟨anchor, _, ⟨-, rfl⟩, built, _, building, run⟩ := run
  obtain ⟨valid, grows, -⟩ := structId_builds (buildTable_builds ..) valid building
  split at run
  · exact (yields_fail run).elim
  · obtain rfl := yields_modify.mp run
    exact ⟨valid.of_model_eq rfl rfl rfl rfl, grows, trivial⟩

theorem buildCodes_builds (document : Document) (window count code : Nat) :
    Builds window (buildCodes document window count code) fun _ _ => True := by
  induction count generalizing code with
  | zero =>
    intro before _ after valid run
    obtain ⟨rfl, rfl⟩ := yields_pure.mp run
    exact ⟨valid, .refl _, trivial⟩
  | succ count ih =>
    intro before _ after valid run
    simp only [buildCodes, yields_bind] at run
    obtain ⟨built, middle, building, run⟩ := run
    obtain ⟨valid, grows, -⟩ := buildTable_builds _ _ _ _ _ _ valid building
    split at run
    · obtain ⟨rfl, rfl⟩ := yields_pure.mp run
      exact ⟨valid, grows, trivial⟩
    · obtain ⟨valid, more, -⟩ := ih (code + 1) valid run
      exact ⟨valid, grows.trans more, trivial⟩

theorem buildRange_builds (document : Document) (window : Nat) (range : RangeRow) :
    Builds window (buildRange document window range) fun _ _ => True := by
  intro before _ after valid run
  simp only [buildRange, yields_bind, yields_readable, yields_ite, yields_fail, false_and,
    exists_false, and_false, false_or] at run
  obtain ⟨⟨first, last⟩, _, ⟨-, rfl⟩, -, run⟩ := run
  exact buildCodes_builds _ _ _ _ valid run

theorem buildAll_builds (document : Document) (window : Nat) :
    Builds window (buildAll document window) fun _ _ => True := by
  intro before _ after valid run
  obtain ⟨_, middle, templates, ranges⟩ := yields_bind.mp run
  obtain ⟨valid, grows, -⟩ := forM_builds (buildTemplate_builds document window) valid templates
  obtain ⟨valid, more, -⟩ := forM_builds (buildRange_builds document window) valid ranges
  exact ⟨valid, grows.trans more, trivial⟩

/-- Nothing is reported only where all keys differ, from each other and from those seen. -/
theorem findRepeats_eq_nil {κ : Type} [BEq κ] [LawfulBEq κ] {report : κ → String → String → Cause}
    {seen items : List (κ × String)} (silent : findRepeats report seen items = []) :
    (items.map Prod.fst).Nodup ∧ ∀ item ∈ items, seen.lookup item.1 = Option.none := by
  induction items generalizing seen with
  | nil => exact ⟨List.nodup_nil, nofun⟩
  | cons item rest ih =>
    obtain ⟨key, name⟩ := item
    simp only [findRepeats, List.append_eq_nil_iff, Option.toList_eq_nil_iff,
      Option.map_eq_none_iff] at silent
    obtain ⟨distinct, unseen⟩ := ih silent.2
    refine ⟨List.nodup_cons.mpr ⟨?_, distinct⟩, ?_⟩
    · intro member
      obtain ⟨other, found, same⟩ := List.mem_map.mp member
      have missing := unseen other found
      simp [same] at missing
    · intro other member
      obtain rfl | member := List.mem_cons.mp member
      · exact silent.1
      · have missing := unseen other member
        rw [List.lookup_cons] at missing
        split at missing
        · cases missing
        · exact missing

theorem coherent_new (window : Nat) (source : String) : (Context.new source).Coherent window :=
  ⟨⟨by simp [Context.new], by simp [Context.new], by simp [Context.new]⟩, by simp [Context.new]⟩

theorem analyze_eq_ok {document : Document} {window : Nat} {source : String} {model : Model}
    (accepted : analyze document window source = .ok model) :
    ∃ context, Yields (buildAll document window) (Context.new source) () context ∧
      context.model = model ∧ repeatedCodes model = [] ∧ repeatedTypes model = [] := by
  unfold analyze at accepted
  split at accepted
  · cases accepted
  · cases accepted
  · next context run =>
    split at accepted
    · next silent =>
      injection accepted with same
      subst same
      exact ⟨_, run, rfl, List.append_eq_nil_iff.mp silent⟩
    · cases accepted

theorem coherent_of_analyze {document : Document} {window : Nat} {source : String} {model : Model}
    (accepted : analyze document window source = .ok model) : model.Coherent window := by
  obtain ⟨context, run, rfl, -⟩ := analyze_eq_ok accepted
  exact (buildAll_builds document window (coherent_new window source) run).1.model

theorem names_of_analyze {document : Document} {window : Nat} {source : String} {model : Model}
    (accepted : analyze document window source = .ok model) :
    (model.enums.map Enum.id ++ model.structs.map Struct.id).Nodup := by
  obtain ⟨context, -, -, -, distinct⟩ := analyze_eq_ok accepted
  have distinct := (findRepeats_eq_nil distinct).1
  simpa only [List.map_append, List.map_map, Function.comp_def] using distinct

/-- Every model that the analysis of a document returns is well formed. -/
theorem analyze_wellFormed {document : Document} {window : Nat} {source : String} {model : Model}
    (accepted : analyze document window source = .ok model) : model.WellFormed window :=
  { coherent_of_analyze accepted with names := names_of_analyze accepted }

/-- A packet with a packed byte, a sequence number, nested structures, padding, a 32-bit descriptor
and a payload. -/
def sampleDocument : Document where
  ranges := [⟨"'0x0030'", "#catalog"⟩]
  structs := [
    ("0x0030", [
      ⟨"u(16)", "catalog_descriptor", "'0x0030'"⟩,
      ⟨"u(3)", "mode", "enum\x7bMode\x7d"⟩,
      ⟨"u(5)", "entry_count", ""⟩,
      ⟨"u(16)", "global_seq", ""⟩,
      ⟨"[=entry_count=]*u(24)", "entries", "struct\x7bEntry\x7d"⟩,
      ⟨"u(8)", "padding", ""⟩,
      ⟨"u(32)", "peer_descriptor", ""⟩,
      ⟨"u(8)", "data_length", ""⟩,
      ⟨"[=data_length=]*b(8)", "data", "payload"⟩]),
    ("Entry", [⟨"u(8)", "entry_descriptor", ""⟩, ⟨"i(16)", "gain", ""⟩])]
  enums := [("Mode", [⟨"OFF", "0x0"⟩, ⟨"ON", "0x1"⟩])]

def sampleEntry : Struct where
  key := "Entry"
  id := "Entry"
  kind := "entry"
  role := .nested
  fields := [
    ⟨"entry_descriptor", .descriptor, 8, .none, none, false⟩,
    ⟨"gain", .scalar true, 16, .none, none, false⟩]
  sizeBits := 24
  descriptor := none

def sampleStruct : Struct where
  key := "0x0030"
  id := "Catalog"
  kind := "catalog"
  role := .packet
  fields := [
    ⟨"catalog_descriptor", .descriptor, 16, .none, some 0x30, false⟩,
    ⟨"mode", .enum "Mode", 3, .none, none, false⟩,
    ⟨"entry_count", .bitfield, 5, .none, none, false⟩,
    ⟨"global_seq", .scalar false, 16, .none, none, true⟩,
    ⟨"entries", .struct "Entry", 24, .fieldRef 2, none, false⟩,
    ⟨"padding", .padding, 8, .none, none, false⟩,
    ⟨"peer_descriptor", .descriptor, 32, .none, none, false⟩,
    ⟨"data_length", .scalar false, 8, .none, none, false⟩,
    ⟨"data", .payload, 8, .fieldRef 7, none, false⟩]
  sizeBits := 88
  descriptor := some 0x30

def sampleModel : Model where
  source := "sample"
  enums := [⟨"Mode", "Mode", [⟨"Off", 0⟩, ⟨"On", 1⟩]⟩]
  structs := [sampleEntry, sampleStruct]
  descriptors := ⟨[("catalog", 0x30)]⟩
  substructs := ["Entry"]

theorem analyze_sample : analyze sampleDocument 32 "sample" = .ok sampleModel :=
  ok_of_toOption (by decide +kernel)

theorem sampleModel_wellFormed :
    analyze sampleDocument 32 "sample" = .ok sampleModel ∧ sampleModel.WellFormed 32 :=
  ⟨analyze_sample, analyze_wellFormed analyze_sample⟩

end PacketSpec
