import PacketSpec.Proofs.Builder.Origin

/-! Which rows become descriptors. A row is promoted by its name, but by the one that it gets among
the fields before it: the second row of a label has a number behind its name, and stays what its
type says. -/
namespace PacketSpec

open Builder
open Cell (TypeCell TypeKind Marker)

def FieldRow.label? (raw : FieldRow) : Option String :=
  (Cell.readName raw.name).toOption.map Text.snakeCase

theorem Text.endsWith_iff {text ending : String} :
    Text.endsWith text ending = true ↔ ending.toList <:+ text.toList :=
  List.isSuffixOf_iff_suffix

namespace Builder

/-- A name with a number behind it ends in a digit. -/
theorem endsWith_numbered (label : String) (number : Nat) :
    Text.endsWith s!"{label}_{Text.decimal number}" "descriptor" = false := by
  rw [← Bool.not_eq_true, Text.endsWith_iff]
  rintro ⟨front, same⟩
  have last := congrArg List.getLast? same
  rw [numbered_toList, List.getLast?_append_cons,
    List.getLast?_cons_of_ne_nil Nat.toDigits_ne_nil] at last
  have ends : (front ++ "descriptor".toList).getLast? = some 'r' := by simp
  rw [ends] at last
  have digit := Nat.isDigit_of_mem_toDigits (by decide) (by decide)
    (List.mem_of_getLast? last.symm)
  simp at digit

theorem freeId_of_unused {siblings : List Field} {label : String}
    (unused : ∀ sibling ∈ siblings, sibling.id ≠ label) : freeId siblings label = label := by
  rw [freeId, candidates, List.find?_cons_of_pos (isFree_iff.mpr unused)]
  rfl

/-- Only a label that no field has keeps its ending. -/
theorem endsWith_freeId {siblings : List Field} {label : String}
    (ending : Text.endsWith label "descriptor" = true) :
    Text.endsWith (freeId siblings label) "descriptor" = true ↔
      ∀ sibling ∈ siblings, sibling.id ≠ label := by
  constructor
  · intro ends sibling member same
    rcases freeId_number siblings label with kept | ⟨number, -, numbered⟩
    · exact freeId_fresh siblings label sibling member (same.trans kept.symm)
    · rw [numbered, endsWith_numbered] at ends
      cases ends
  · intro unused
    rw [freeId_of_unused unused]
    exact ending

theorem typedShape_descriptor {o : Outline} {kind : TypeKind} {shape : Shape}
    {before after : Context} (run : Yields (typedShape o kind) before shape after) :
    shape = .descriptor ↔ Text.endsWith o.id "descriptor" = true := by
  by_cases ending : Text.endsWith o.id "descriptor" = true
  · simp only [typedShape, ending, if_true, yields_ite, yields_pure, yields_failAt, and_false,
      false_or] at run
    exact iff_of_true run.2.2.1 ending
  · refine iff_of_false ?_ ending
    rintro rfl
    simp [typedShape, ending] at run

variable {document : Document} {structs : List Struct} {siblings : List Field} {raw : FieldRow}
  {field : Field}

/-- A field is named by its row and the fields before it. -/
theorem Gives.named (gives : Gives document structs siblings raw field) :
    ∃ label, raw.label? = some label ∧ field.id = freeId siblings label := by
  obtain ⟨-, named, -, -, run, -⟩ := gives
  refine ⟨_, ?_, (buildField_yields run).1⟩
  rw [FieldRow.label?, named]
  rfl

/-- A row without a value, or with a fixed one, is promoted by the name of its field. -/
theorem Gives.promoted (gives : Gives document structs siblings raw field) {value : Option Nat}
    (marked : Cell.readMarker raw.value = .ok (value.elim .none .fixed)) :
    (field.shape = .descriptor ↔ Text.endsWith field.id "descriptor" = true) ∧
      field.fixed = value.map fun v =>
        if field.shape = .descriptor ∧ field.width = 8 then v <<< 8 else v := by
  obtain ⟨read, -, -, -, run, -⟩ := gives
  obtain rfl := Except.ok.inj (read.symm.trans marked)
  simp only [buildField, yields_ite, yields_bind, yields_failAt, yields_pure, false_and,
    exists_false, and_false, false_or] at run
  obtain ⟨-, repetition, _, -, shaped, _, run, -, rfl, -⟩ := run
  cases value with
  | none =>
    simp only [Option.elim_none, shapeField, yields_bind, yields_pure] at run
    obtain ⟨shape, _, typed, rfl, -⟩ := run
    have promoted := typedShape_descriptor typed
    exact ⟨promoted, rfl⟩
  | some v =>
    simp only [Option.elim_some, shapeField, yields_bind, yields_pure] at run
    obtain ⟨shape, _, typed, stored, _, fixed, rfl, -⟩ := run
    obtain ⟨-, -, -, -, rfl⟩ := fixedValue_stores fixed
    have promoted := typedShape_descriptor typed
    refine ⟨promoted, ?_⟩
    simp

/-- A field before `index` has a label that ends in `descriptor` as its name exactly if a row before
`index` has that label: such a name never comes from a number. -/
theorem Reads.label_used {rows : List FieldRow} {fields : List Field}
    (reads : Reads document structs rows fields) {label : String}
    (ending : Text.endsWith label "descriptor" = true) (index : Nat) :
    (∃ sibling ∈ fields.take index, sibling.id = label) ↔
      ∃ earlier < index, rows[earlier]?.bind FieldRow.label? = some label := by
  constructor
  · rintro ⟨sibling, member, rfl⟩
    obtain ⟨earlier, before, rfl⟩ := List.mem_take_iff_getElem.mp member
    have inside : earlier < rows.length := by
      rw [← reads.length]
      omega
    have row := List.getElem?_eq_getElem inside
    obtain ⟨label, labelled, named⟩ :=
      (reads.each earlier _ _ row (List.getElem?_eq_getElem (by omega))).named
    rcases freeId_number (fields.take earlier) label with same | ⟨number, -, numbered⟩
    · refine ⟨earlier, by omega, ?_⟩
      rw [row, named, same]
      exact labelled
    · rw [named, numbered, endsWith_numbered] at ending
      cases ending
  · rintro ⟨earlier, before, labelled⟩
    obtain ⟨raw, row, labelled⟩ := Option.bind_eq_some_iff.mp labelled
    obtain ⟨field, place, gives⟩ := reads.exists_field row
    obtain ⟨other, also, named⟩ := gives.named
    obtain rfl : label = other := Option.some.inj (labelled.symm.trans also)
    by_cases used : ∃ sibling ∈ fields.take earlier, sibling.id = label
    · obtain ⟨sibling, member, same⟩ := used
      exact ⟨sibling, List.take_subset_take_left fields (Nat.le_of_lt before) member, same⟩
    · have unused : ∀ sibling ∈ fields.take earlier, sibling.id ≠ label :=
        fun sibling member same => used ⟨sibling, member, same⟩
      rw [freeId_of_unused unused] at named
      refine ⟨field, ?_, named⟩
      apply List.mem_of_getElem?
      rw [List.getElem?_take_of_lt before]
      exact place

end Builder

/-- A row whose label ends in `descriptor`, without a value or with a fixed one, becomes a
descriptor exactly if no row before it in its table has that label. The fixed value of a descriptor
of eight bits is the upper half of a code. -/
theorem descriptor_promoted_iff {document : Document} {window : Nat} {source : String}
    {model : Model} (accepted : analyze document window source = .ok model) {s : Struct}
    (member : s ∈ model.structs) {index : Nat} {raw : FieldRow}
    (row : document.fieldRow? s.key index = some raw) {label : String}
    (labelled : raw.label? = some label) (ending : Text.endsWith label "descriptor" = true)
    {value : Option Nat} (marked : Cell.readMarker raw.value = .ok (value.elim .none .fixed)) :
    ∃ field, s.fields[index]? = some field ∧
      (field.shape = .descriptor ↔ ∀ earlier < index,
        (document.fieldRow? s.key earlier).bind FieldRow.label? ≠ some label) ∧
      field.fixed = value.map fun v =>
        if field.shape = .descriptor ∧ field.width = 8 then v <<< 8 else v := by
  have reads := reads_of_analyze accepted member
  obtain ⟨field, place, gives⟩ := reads.exists_field row
  obtain ⟨promoted, fixed⟩ := gives.promoted marked
  obtain ⟨other, also, named⟩ := gives.named
  obtain rfl : label = other := Option.some.inj (labelled.symm.trans also)
  refine ⟨field, place, ?_, fixed⟩
  rw [promoted, named, endsWith_freeId ending]
  constructor
  · intro unused earlier before same
    obtain ⟨sibling, present, equal⟩ :=
      (reads.label_used ending index).mpr ⟨earlier, before, same⟩
    exact unused sibling present equal
  · intro unlabelled sibling present equal
    obtain ⟨earlier, before, same⟩ :=
      (reads.label_used ending index).mp ⟨sibling, present, equal⟩
    exact unlabelled earlier before same

def linkDocument : Document where
  ranges := [⟨"'0x0001'", ""⟩]
  structs := [
    ("0x0001", [
      ⟨"u(8)", "link_descriptor", "'0x01'"⟩,
      ⟨"u(8)", "route_descriptor", "'0x02'"⟩,
      ⟨"u(8)", "link_descriptor", "'0x03'"⟩])]

def linkStruct : Struct where
  key := "0x0001"
  id := "Link"
  kind := "link"
  role := .packet
  fields := [
    ⟨"link_descriptor", .descriptor, 8, .none, some 0x0100, false⟩,
    ⟨"route_descriptor", .descriptor, 8, .none, some 0x0200, false⟩,
    ⟨"link_descriptor_2", .scalar false, 8, .none, some 3, false⟩]
  sizeBits := 24
  descriptor := some 0x80000100

def linkModel : Model where
  source := "test"
  structs := [linkStruct]
  descriptors := ⟨[("link", 0x80000100)]⟩

theorem analyze_link : analyze linkDocument 32 "test" = .ok linkModel :=
  ok_of_toOption (by decide +kernel)

/-- The second row is promoted, though a descriptor of another label stands before it. -/
theorem route_promoted :
    linkDocument.fieldRow? "0x0001" 1 = some ⟨"u(8)", "route_descriptor", "'0x02'"⟩ ∧
    FieldRow.label? ⟨"u(8)", "route_descriptor", "'0x02'"⟩ = some "route_descriptor" ∧
    Cell.readMarker "'0x02'" = .ok (.fixed 2) ∧
    ∃ field, linkStruct.fields[1]? = some field ∧ field.shape = .descriptor ∧
      field.fixed = some 0x0200 := by
  have row : linkDocument.fieldRow? linkStruct.key 1 =
      some ⟨"u(8)", "route_descriptor", "'0x02'"⟩ := by decide
  have labelled : FieldRow.label? ⟨"u(8)", "route_descriptor", "'0x02'"⟩ =
      some "route_descriptor" := by decide +kernel
  have marked : Cell.readMarker "'0x02'" = .ok ((some 2).elim .none .fixed) := by decide +kernel
  obtain ⟨field, place, promoted, fixed⟩ := descriptor_promoted_iff analyze_link
    (List.mem_singleton.mpr rfl) row labelled (by decide) marked
  have unused : ∀ earlier < 1,
      (linkDocument.fieldRow? linkStruct.key earlier).bind FieldRow.label? ≠
        some "route_descriptor" := by decide +kernel
  refine ⟨row, labelled, marked, field, place, promoted.mpr unused, ?_⟩
  cases place
  exact fixed

/-- The third row has the label and the value of a descriptor and becomes a number, whose value is
not moved. -/
theorem repeated_link_not_promoted :
    analyze linkDocument 32 "test" = .ok linkModel ∧ linkStruct ∈ linkModel.structs ∧
    linkDocument.fieldRow? linkStruct.key 2 = some ⟨"u(8)", "link_descriptor", "'0x03'"⟩ ∧
    FieldRow.label? ⟨"u(8)", "link_descriptor", "'0x03'"⟩ = some "link_descriptor" ∧
    Text.endsWith "link_descriptor" "descriptor" = true ∧
    Cell.readMarker "'0x03'" = .ok (.fixed 3) ∧
    linkStruct.fields[2]? = some ⟨"link_descriptor_2", .scalar false, 8, .none, some 3, false⟩ :=
  ⟨analyze_link, List.mem_singleton.mpr rfl, by decide, by decide +kernel, by decide,
    by decide +kernel, rfl⟩

end PacketSpec
