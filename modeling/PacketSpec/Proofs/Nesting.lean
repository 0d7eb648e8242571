import PacketSpec.Proofs.Builder.Nesting
import PacketSpec.Proofs.Codegen.Declared
import PacketSpec.Proofs.HeaderSize

/-! Which structures of an accepted document are left out of its packets. A structure is, if a
structure holds it in a field, and also if a table refers to it of which no structure was made. -/
namespace PacketSpec

open Builder Codegen

variable {document : Document} {window : Nat} {source : String} {model : Model}
  {outcomes : List (String × Built)}

theorem forM_keeps {α : Type} {items : List α} {step : α → Build Unit}
    (evolves : ∀ item, Evolves (step item)) (each : ∀ item, Keeps document outcomes (step item)) :
    Keeps document outcomes (items.forM step) := by
  induction items with
  | nil => exact (still_pure ()).keeps
  | cons item rest ih => exact (each item).bind (fun _ => forM_evolves evolves) fun _ => ih

theorem buildTemplate_keeps (window : Nat) (template : TemplateRow) :
    Keeps document outcomes (buildTemplate document window template) := by
  intro before _ after pending run recorded marked
  simp only [buildTemplate, yields_bind, yields_readable] at run
  obtain ⟨anchor, _, ⟨-, rfl⟩, result, middle, asked, run⟩ := run
  rw [buildStruct_eq] at asked
  obtain ⟨built, building, rfl⟩ := yields_map.mp asked
  cases named : built.structId? with
  | none =>
    rw [named] at run
    exact (yields_fail run).elim
  | some id =>
    rw [named] at run
    obtain rfl := yields_modify.mp run
    exact (buildTable_keeps _ _ _ _ _ building recorded marked).congr ⟨rfl, rfl, rfl⟩

theorem buildCodes_keeps (window count code : Nat) :
    Keeps document outcomes (buildCodes document window count code) := by
  induction count generalizing code with
  | zero => exact (still_pure ()).keeps
  | succ count ih =>
    apply Keeps.bind (buildTable_keeps _ _ _ _ _)
    · intro built
      cases built with
      | empty => exact (still_pure ()).evolves
      | struct | templated => exact buildCodes_evolves _ _ _ _
    · intro built
      cases built with
      | empty => exact (still_pure ()).keeps
      | struct | templated => exact ih (code + 1)

theorem buildRange_keeps (window : Nat) (range : RangeRow) :
    Keeps document outcomes (buildRange document window range) := by
  intro before _ after pending run recorded marked
  simp only [buildRange, yields_bind, yields_readable, yields_ite, yields_fail, false_and,
    exists_false, and_false, false_or] at run
  obtain ⟨_, _, ⟨-, rfl⟩, -, run⟩ := run
  exact buildCodes_keeps _ _ _ run recorded marked

theorem buildAll_keeps (window : Nat) : Keeps document outcomes (buildAll document window) :=
  (forM_keeps (buildTemplate_evolves document window) (buildTemplate_keeps window)).bind
    (fun _ => forM_evolves (buildRange_evolves document window))
    fun _ => forM_keeps (buildRange_evolves document window) (buildRange_keeps window)

def tableOutcomes (document : Document) (window : Nat) (source : String) :
    List (String × Built) :=
  ((buildAll document window).run (Context.new source)).2.built

/-- The types that are nested by tables of which no structure is made: those without a field of
known size and those with a template. -/
def discardedTypes (document : Document) (window : Nat) (source : String) : List String :=
  let outcomes := tableOutcomes document window source
  (outcomes.filter (·.2.structId?.isNone)).flatMap fun entry =>
    tableTypes document outcomes entry.1

theorem mem_discardedTypes {typeId : String} :
    typeId ∈ discardedTypes document window source ↔
      ∃ entry ∈ tableOutcomes document window source, entry.2.structId? = none ∧
        typeId ∈ tableTypes document (tableOutcomes document window source) entry.1 := by
  simp [discardedTypes, and_assoc]

def Struct.Holds (s : Struct) (typeId : String) : Prop :=
  ∃ field ∈ s.fields, field.shape = .struct typeId

instance (s : Struct) (typeId : String) : Decidable (s.Holds typeId) :=
  inferInstanceAs (Decidable (∃ field ∈ s.fields, field.shape = .struct typeId))

def Model.Uses (model : Model) (typeId : String) : Prop := ∃ s ∈ model.structs, s.Holds typeId

instance (model : Model) (typeId : String) : Decidable (model.Uses typeId) :=
  inferInstanceAs (Decidable (∃ s ∈ model.structs, s.Holds typeId))

/-- What was marked belongs to the structures of the model or was discarded with its table. -/
theorem mem_substructs (accepted : analyze document window source = .ok model) (typeId : String) :
    typeId ∈ model.substructs ↔
      model.Uses typeId ∨ typeId ∈ discardedTypes document window source := by
  obtain ⟨context, run, rfl, -⟩ := analyze_eq_ok accepted
  have changes : Changes (Context.new source) context :=
    (buildAll_evolves document window).of_run run
  have consistent := changes.consistent (consistent_new source)
  have distinct := changes.builtKeys (by simp [Context.new])
  have outcomes : tableOutcomes document window source = context.built := by
    rw [tableOutcomes, run]
  have marked : Marked document context.built [] context :=
    buildAll_keeps window run (List.prefix_refl _) (marked_new source)
  have holds : ∀ s ∈ context.model.structs, s.Holds typeId ↔
      typeId ∈ tableTypes document context.built s.key := by
    intro s member
    rw [← marked.structs s member, mem_structTypes]
    rfl
  rw [marked.substructs, mem_discardedTypes, outcomes]
  constructor
  · rintro (waiting | ⟨⟨key, built⟩, member, nested⟩)
    · cases waiting
    cases built with
    | struct id =>
      obtain ⟨s, among, rfl, rfl⟩ := (consistent.built key id).mp (lookup_of_nodup distinct member)
      exact .inl ⟨s, among, (holds s among).mpr nested⟩
    | templated | empty => exact .inr ⟨_, member, rfl, nested⟩
  · rintro (⟨s, among, held⟩ | ⟨entry, member, -, nested⟩)
    · have recorded := (consistent.built s.key s.id).mpr ⟨s, among, rfl, rfl⟩
      exact .inr ⟨_, mem_of_lookup recorded, (holds s among).mp held⟩
    · exact .inr ⟨entry, member, nested⟩

theorem not_mem_toplevel {s : Struct} (member : s ∈ model.structs) :
    s ∉ model.toplevel ↔ s.id ∈ model.substructs := by
  simp [Model.toplevel, member]

/-- A structure that holds another one comes after it. -/
theorem ne_of_holds (formed : model.WellFormed window) {s other : Struct}
    (member : other ∈ model.structs) (held : other.Holds s.id) : other ≠ s := by
  rintro rfl
  obtain ⟨field, inside, shape⟩ := held
  obtain ⟨earlier, later, place⟩ := List.append_of_mem member
  obtain ⟨-, nested, before, same, -⟩ :=
    (formed.structs earlier other later place).fields.structs field inside other.id shape
  have distinct := (List.nodup_append.mp formed.names).2.1
  rw [place, List.map_append, List.map_cons] at distinct
  have apart := (List.nodup_append.mp distinct).2.2
  exact apart nested.id (List.mem_map_of_mem before) other.id List.mem_cons_self same

/-- The lookup by code misses a packet exactly where it is left out. -/
theorem Model.Made.headerSize?_eq_none (made : model.Made) {s : Struct}
    (member : s ∈ model.structs) (role : s.role = .packet) {code : Nat}
    (coded : s.descriptor = some code) : model.headerSize? code = none ↔ s ∉ model.toplevel := by
  have own : s.code? = some (clearFlag code) := by rw [Struct.code?, coded]; rfl
  obtain ⟨distinct, -, apart⟩ := List.nodup_append.mp made.codes_nodup
  constructor
  · intro missing top
    rw [made.headerSize?_packet (Model.mem_packets.mpr ⟨top, role⟩) own] at missing
    cases missing
  · intro left
    apply Model.headerSize?_unknown
    · intro packet listed same
      have among := Model.mem_of_mem_packets listed
      obtain rfl := eq_of_nodup_filterMap distinct among member same own
      exact left (Model.mem_packets.mp listed).1
    · intro t listed same
      have known := List.mem_filterMap.mpr ⟨s, member, own⟩
      apply apart _ known _ (List.mem_map_of_mem listed)
      rw [same, clearFlag_clearFlag]

/-- The union of packets misses a structure exactly where it is left out. -/
theorem Model.Made.not_mem_variantNames (made : model.Made) {s : Struct}
    (member : s ∈ model.structs) {decl : Code} (generated : packetUnion model = .ok decl) :
    escaped s.id ∉ variantNames decl ↔ s ∉ model.toplevel := by
  rw [variantNames_packetUnion generated, not_iff_not]
  constructor
  · intro listed
    obtain ⟨packet, top, same⟩ := List.mem_map.mp listed
    have among := List.mem_of_mem_filter top
    have sameId : packet.id = s.id :=
      escaped_injective (made.structs packet among).simpleId (made.structs s member).simpleId same
    apply Classical.not_not.mp
    rw [not_mem_toplevel member, ← sameId, ← not_mem_toplevel among]
    exact fun left => left top
  · exact fun top => List.mem_map.mpr ⟨s, top, rfl⟩

/-- A type is marked as nested if a structure has a field of it or a discarded table refers to it,
so the marks are exactly the types of fields where every discarded reference is also a field. The
union of packets and the lookup of header sizes miss the structures with a mark and no others. -/
theorem substructs_used_or_discarded (accepted : analyze document window source = .ok model) :
    (∀ typeId, typeId ∈ model.substructs ↔
      model.Uses typeId ∨ typeId ∈ discardedTypes document window source) ∧
    ((∀ typeId, typeId ∈ model.substructs ↔ model.Uses typeId) ↔
      ∀ typeId ∈ discardedTypes document window source, model.Uses typeId) ∧
    ∀ s ∈ model.structs,
      (s ∉ model.toplevel ↔ (∃ other ∈ model.structs, other ≠ s ∧ other.Holds s.id) ∨
        s.id ∈ discardedTypes document window source) ∧
      (∀ decl, packetUnion model = .ok decl →
        (escaped s.id ∉ variantNames decl ↔ s ∉ model.toplevel)) ∧
      ∀ code, s.role = .packet → s.descriptor = some code →
        (model.headerSize? code = none ↔ s ∉ model.toplevel) := by
  have formed : model.WellFormed window :=
    { coherent_of_analyze accepted with names := names_of_analyze accepted }
  have made := made_of_analyze accepted
  have marked := mem_substructs accepted
  refine ⟨marked, ?_, fun s member => ⟨?_, ?_, ?_⟩⟩
  · constructor
    · intro same typeId discarded
      exact (same typeId).mp ((marked typeId).mpr (.inr discarded))
    · intro used typeId
      rw [marked, or_iff_left_of_imp (used typeId)]
  · rw [not_mem_toplevel member, marked, or_congr_left]
    constructor
    · rintro ⟨other, among, held⟩
      exact ⟨other, among, ne_of_holds formed among held, held⟩
    · rintro ⟨other, among, -, held⟩
      exact ⟨other, among, held⟩
  · exact fun decl generated => made.not_mem_variantNames member generated
  · exact fun code role coded => made.headerSize?_eq_none member role coded

/-- The entries of the sample packet are left out since it holds them, and nothing is discarded. -/
theorem sample_substructs :
    analyze sampleDocument 32 "sample" = .ok sampleModel ∧
    discardedTypes sampleDocument 32 "sample" = [] ∧
    (∀ typeId, typeId ∈ sampleModel.substructs ↔ sampleModel.Uses typeId) ∧
    sampleEntry ∉ sampleModel.toplevel ∧ sampleModel.headerSize? 0x30 ≠ none := by
  obtain ⟨-, holds, each⟩ := substructs_used_or_discarded analyze_sample
  have kept : discardedTypes sampleDocument 32 "sample" = [] := by decide +kernel
  refine ⟨analyze_sample, kept, holds.mpr (by simp [kept]), ?_, ?_⟩
  · apply (each sampleEntry (by decide)).1.mpr
    exact .inl ⟨sampleStruct, by decide, by decide, by decide⟩
  · rw [ne_eq, (each sampleStruct (by decide)).2.2 0x30 rfl rfl]
    decide

/-- A packet and a table that refers to it in its only field, whose size is not counted. -/
def pingDocument : Document where
  ranges := [⟨"'0x0002'", ""⟩, ⟨"'0x0001'", ""⟩]
  structs := [
    ("0x0001", [⟨"u(8)", "body", "struct\x7b0x0002\x7d"⟩]),
    ("0x0002", [⟨"u(16)", "ping_descriptor", "'0x0002'"⟩])]

def pingModel : Model where
  source := "test"
  structs := [{
    key := "0x0002"
    id := "Ping"
    kind := "ping"
    role := .packet
    fields := [⟨"ping_descriptor", .descriptor, 16, .none, some 2, false⟩]
    sizeBits := 16
    descriptor := some 2 }]
  descriptors := ⟨[("ping", 2)]⟩
  substructs := ["Ping"]

/-- The packet is in no field of the model and all the same it is left out. -/
theorem pingDocument_substructs :
    analyze pingDocument 32 "test" = .ok pingModel ∧
    "Ping" ∈ pingModel.substructs ∧ ¬ pingModel.Uses "Ping" ∧
    pingModel.toplevel = [] ∧ pingModel.headerSize? 2 = none ∧
    discardedTypes pingDocument 32 "test" = ["Ping"] :=
  ⟨ok_of_toOption (by decide +kernel), by decide, by decide, by decide, by decide,
    by decide +kernel⟩

end PacketSpec
