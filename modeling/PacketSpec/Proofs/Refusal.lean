import PacketSpec.Proofs.Codec.Refusing

/-! Writing accepts the valid values and no others. The error for any other value is that of its
first violation in the order of writing. -/
namespace PacketSpec

open Wire Encode Format

def Struct.paritiesFirst (s : Struct) : Bool :=
  s.fields.Pairwise fun before after => !(before.isOpen && after.shape.isParity)

theorem Struct.closed_before {s : Struct} {before after : List Field} {field : Field}
    (first : s.paritiesFirst = true) (place : s.fields = before ++ field :: after)
    (parity : field.shape.isParity = true) : ∀ other ∈ before, other.isOpen = false := by
  intro other member
  have pairs := of_decide_eq_true first
  rw [place, List.pairwise_append] at pairs
  have apart := pairs.2.2 other member field (.head _)
  simpa [parity] using apart

namespace Codec

variable {model : Model} {encoders : String → Option Encoder} {measures : String → Option Measure}
  {bits : String → Value → List Bool} {typed : String → Value → Bool}
  {errors : String → Value → List EncodeError} {s : Struct} {record : Record} {window : Nat}

/-- The fields of a structure are checked one after the other. At a parity all fields before it are
closed, so that what they take is enough for its message. -/
theorem encodeStruct_judges {segments : List Segment} (laid : layout window s = .ok segments)
    (typedFields : ∀ field ∈ s.fields, TypedField model encoders measures bits typed s record field)
    (small : staticBitsOf s.fields < Size.bound)
    (judgeable : ∀ field ∈ s.fields, ∀ typeId, field.shape = .struct typeId →
      Judgeable encoders bits typed errors typeId)
    (parities : ParitiesCover s.fields) (first : s.paritiesFirst = true) :
    Judges (encodeStruct window encoders s (.record record)) 0
      ((structBits bits s (.record record)).length / 8)
      (structErrors errors s (.record record)) := by
  obtain ⟨whole, sound⟩ := layout_fields laid
  have inside (segment) (member : segment ∈ segments) (field) (own : field ∈ segment.fields) :
      field ∈ s.fields := whole ▸ List.mem_flatMap.mpr ⟨segment, member, own⟩
  rw [encodeStruct, laid, structBits, structErrors]
  refine judges_check_bind rfl ?_
  rw [← whole, List.flatMap_assoc, List.flatMap_assoc]
  refine judges_forM (fun segment member => ?_) ?_
  · refine (encodeSegment_accounts (sound segment member)
      (fun field own => typedFields field (inside segment member field own)) ?_).toFills
    rw [← whole] at small
    exact Nat.lt_of_le_of_lt (staticBitsOf_segment_le member) small
  · rintro front segment back rfl
    have member : segment ∈ front ++ segment :: back := by simp
    refine encodeSegment_judges (sound segment member)
      (fun field own => typedFields field (inside segment member field own))
      (fun field own => judgeable field (inside segment member field own)) ?_
    rintro field rfl code shape
    have place : s.fields =
        front.flatMap Segment.fields ++ field :: back.flatMap Segment.fields := by
      simp [← whole, Segment.fields]
    -- the analyzer compares the message with the declared widths, the writer with what is written
    obtain ⟨aligned, message⟩ := parities _ _ _ place code shape
    have enough := declaredSinceParity_le
      (fun other own => typedFields other (by simp [place, own]))
      (Struct.closed_before first place (by simp [shape, Shape.isParity]))
    rw [List.flatMap_assoc] at enough
    exact ⟨aligned, by omega⟩

/-- The values of a structure whose parts all have their parities first are refused with their
errors. -/
theorem judgeable_meaning (formed : model.WellFormed window) (made : ∀ s ∈ model.structs, s.Made)
    {structs front : List Struct} (place : model.structs.reverse = front ++ structs) :
    ∀ id, meaningOr false (everyPart Struct.paritiesFirst) structs id = true →
      Judgeable (meaningIn? (encodeStruct window) structs)
        (meaningOr (fun _ => []) structBits structs)
        (meaningOr (fun _ => false) (everyRecord (recordTyped model)) structs)
        (meaningOr (fun _ => []) structErrors structs) id := by
  induction structs generalizing front with
  | nil =>
    intro id first
    cases first
  | cons s earlier ih =>
    have later : model.structs.reverse = (front ++ [s]) ++ earlier := by simp [place]
    have others := ih later
    have parts := accountable_meaning formed made later
    have split : model.structs = earlier.reverse ++ s :: front.reverse := by
      rw [← List.reverse_reverse model.structs, place]
      simp
    have sound := formed.structs earlier.reverse s front.reverse split
    have ready := made s (by simp [split])
    intro id first encoder known value right
    simp only [meaningIn?, meaningOr] at first known right ⊢
    by_cases same : (s.id == id) = true
    · simp only [if_pos same] at first known right ⊢
      obtain rfl := Option.some.inj known
      obtain ⟨own, nested⟩ := everyPart_iff.mp first
      cases value with
      | record record =>
        obtain ⟨segments, laid⟩ := sound.laid
        have typedFields := typedFields_of_typed sound.fields ready sound.sizeBits
          (fun other before => parts other (List.mem_reverse.mp before)) right
        exact encodeStruct_judges laid typedFields (sound.sizeBits ▸ ready.sizeBits)
          (fun field member typeId shape => others typeId (nested field member typeId shape))
          ready.parities own
      | _ => cases right
    · simp only [if_neg same] at first known right ⊢
      exact others id first encoder known value right

end Codec

namespace Format

variable {errors : String → Value → List EncodeError} {valid : String → Value → Bool}
  {s : Struct} {record : Record} {field : Field} {value : Value}

def recordValid (s : Struct) (record : Record) : Bool :=
  s.fields.all fun field =>
    !field.isStored || (record.lookup field.id).any (fieldFits s record field)

theorem elementErrors_eq_nil : elementErrors errors s field value = [] ↔
    elementFits field value = true ∧
      ∀ typeId, field.shape = .struct typeId → errors typeId value = [] := by
  unfold elementErrors elementFits rangeErrors
  cases shape : field.shape <;> cases value <;> cases field.seq <;> simp

theorem countErrors_eq_nil : countErrors s record field value = [] ↔
    ∀ index, field.repetition = .fieldRef index → value.count = record.repeats s field := by
  unfold countErrors
  cases field.repetition <;> simp

theorem fieldErrors_eq_nil (formed : field.WellFormed)
    (stored : field.isStored = true → ∃ value, record.lookup field.id = some value)
    (nested : ∀ typeId, field.shape = .struct typeId → ∀ element ∈ record.elements field,
      (errors typeId element = [] ↔ valid typeId element = true)) :
    fieldErrors errors s record field = [] ↔
      (!field.isStored || (record.lookup field.id).any (fieldFits s record field)) = true ∧
      (match field.shape with
        | .struct typeId => (record.elements field).all (valid typeId)
        | _ => true) = true := by
  by_cases held : field.isStored = true
  · obtain ⟨value, found⟩ := stored held
    rw [Record.elements_of_lookup found] at nested ⊢
    rw [Codec.fieldErrors_stored held found, List.append_eq_nil_iff, countErrors_eq_nil,
      List.flatMap_eq_nil_iff]
    simp only [held, found, Option.any_some, Bool.not_true, Bool.false_or, fieldFits_iff,
      elementErrors_eq_nil]
    cases shape : field.shape with
    | struct typeId =>
      simp only [List.all_eq_true, and_assoc]
      refine and_congr_right fun _ => ?_
      constructor
      · intro each
        exact ⟨fun element member => (each element member).1, fun element member =>
          (nested typeId shape element member).mp ((each element member).2 typeId rfl)⟩
      · rintro ⟨fits, valid⟩ element member
        refine ⟨fits element member, ?_⟩
        rintro _ ⟨rfl⟩
        exact (nested typeId shape element member).mpr (valid element member)
    | _ => simp
  · have implied : field.isStored = false := by simpa using held
    rw [Codec.fieldErrors_implied implied, implied]
    have fixed := formed.fixed
    cases shape : field.shape <;> cases value : field.fixed <;>
      simp_all [Field.isStored, Shape.isParity, Field.Fixes]

/-- A value of a structure has no errors if and only if it and all values nested in it are valid. -/
theorem structErrors_eq_nil {model : Model} {typed : String → Value → Bool}
    (formed : ∀ field ∈ s.fields, field.WellFormed)
    (nested : ∀ id value, typed id value = true → (errors id value = [] ↔ valid id value = true))
    (right : everyRecord (recordTyped model) typed s value = true) :
    structErrors errors s value = [] ↔ everyRecord recordValid valid s value = true := by
  cases value with
  | record record =>
    simp only [everyRecord, recordTyped, recordValid, Bool.and_eq_true, List.all_eq_true] at right ⊢
    obtain ⟨⟨-, own⟩, parts⟩ := right
    rw [structErrors, List.flatMap_eq_nil_iff, ← forall₂_and]
    refine forall₂_congr fun field member => fieldErrors_eq_nil (formed field member) ?_ ?_
    · intro stored
      have own := own field member
      simp only [stored, Bool.not_true, Bool.false_or] at own
      obtain ⟨value, found, -⟩ := (Option.any_eq_true _ _).mp own
      exact ⟨value, found⟩
    · intro typeId shape element inside
      have parts := parts field member
      rw [shape, List.all_eq_true] at parts
      exact nested typeId element (parts element inside)
  | _ => cases right

theorem meaningOr_structErrors_eq_nil {model : Model} {structs : List Struct}
    (formed : ∀ s ∈ structs, ∀ field ∈ s.fields, field.WellFormed) : ∀ id value,
    meaningOr (fun _ => false) (everyRecord (recordTyped model)) structs id value = true →
      (meaningOr (fun _ => []) structErrors structs id value = [] ↔
        meaningOr (fun _ => false) (everyRecord recordValid) structs id value = true) := by
  induction structs with
  | nil =>
    intro id value right
    cases right
  | cons s earlier ih =>
    have others := ih fun other member => formed other (.tail _ member)
    intro id value right
    simp only [meaningOr] at right ⊢
    by_cases same : (s.id == id) = true
    · simp only [if_pos same] at right ⊢
      exact structErrors_eq_nil (formed s (.head _)) others right
    · simp only [if_neg same] at right ⊢
      exact others id value right

/-- The errors that a value has by itself: a number with too many bits, or an array of another
length than its count says. -/
def isViolation : EncodeError → Bool
  | .invalidScalarValue .. | .invalidArrayCount .. => true
  | _ => false

theorem isViolation_rangeErrors (n : Nat) : ∀ e ∈ rangeErrors s field n, isViolation e = true := by
  unfold rangeErrors
  split <;> simp [isViolation]

theorem isViolation_countErrors : ∀ e ∈ countErrors s record field value, isViolation e = true := by
  unfold countErrors
  split
  · simp only
    split <;> simp [isViolation]
  · simp

section Nested

variable (nested : ∀ id value, ∀ e ∈ errors id value, isViolation e = true)

include nested

theorem isViolation_elementErrors :
    ∀ e ∈ elementErrors errors s field value, isViolation e = true := by
  unfold elementErrors
  split
  · exact nested _ _
  · split
    · simp
    · exact isViolation_rangeErrors _
  · exact isViolation_rangeErrors _
  · simp

theorem isViolation_structErrors : ∀ e ∈ structErrors errors s value, isViolation e = true := by
  intro e member
  unfold structErrors at member
  split at member
  · obtain ⟨field, -, own⟩ := List.mem_flatMap.mp member
    unfold fieldErrors at own
    split at own
    · split at own
      · rcases List.mem_append.mp own with count | element
        · exact isViolation_countErrors e count
        · obtain ⟨value, -, refused⟩ := List.mem_flatMap.mp element
          exact isViolation_elementErrors nested e refused
      · cases own
    · cases own
  · cases member

end Nested

theorem isViolation_meaningOr (structs : List Struct) :
    ∀ id value, ∀ e ∈ meaningOr (fun _ => []) structErrors structs id value,
      isViolation e = true := by
  induction structs with
  | nil =>
    intro id value e member
    cases member
  | cons s earlier ih =>
    intro id value e member
    simp only [meaningOr] at member
    split at member
    · exact isViolation_structErrors ih e member
    · exact ih id value e member

end Format

namespace Model

/-- Whether a value can be written: its numbers fit their fields and its arrays have the lengths
that their counts say, and so for the values nested in it. -/
def valid (model : Model) : String → Value → Bool := model.everyRecord recordValid

/-- The errors of a value in the order of writing: field after field, the count of an array before
its elements, and the errors of a nested value where the value stands. -/
def violations (model : Model) (id : String) (value : Value) : List EncodeError :=
  meaningOr (fun _ => []) structErrors model.structs.reverse id value

theorem WellFormed.violations_eq_nil {model : Model} {window : Nat} {value : Value} {id : String}
    (formed : model.WellFormed window) (right : model.hasType id value = true) :
    model.violations id value = [] ↔ model.valid id value = true := by
  have each : ∀ s ∈ model.structs.reverse, ∀ field ∈ s.fields, field.WellFormed := by
    intro s member
    obtain ⟨earlier, later, place⟩ := List.append_of_mem (List.mem_reverse.mp member)
    exact (formed.structs earlier s later place).fields.each
  exact meaningOr_structErrors_eq_nil each id value right

/-- Writing a value refuses its first violation. -/
theorem WellFormed.encode_judges {model : Model} {window : Nat} {s : Struct} {value : Value}
    (formed : model.WellFormed window) (made : ∀ s ∈ model.structs, s.Made)
    (member : s ∈ model.structs) (first : model.everyPart Struct.paritiesFirst s.id = true)
    (right : model.hasType s.id value = true) :
    Judges (model.encode window s.id value) 0 ((model.wireBits s.id value).length / 8)
      (model.violations s.id value) := by
  have judgeable := Codec.judgeable_meaning formed made (List.nil_append model.structs.reverse).symm
    s.id first
  obtain ⟨earlier, later, place⟩ := List.append_of_mem member
  have known := formed.meaning_self place (Codec.encodeStruct window)
  rw [Model.encode, known]
  exact judgeable _ (Model.meaning_eq_ok.mp known) value right

end Model

/-- A value that has a buffer is written to one. -/
theorem Model.encodeToBytes_of_small {model : Model} {window size : Nat} {id : String}
    {value : Value} (measured : model.encodedSize window id value = .ok size)
    (small : size < 2 ^ 63) :
    model.encodeToBytes window id value =
      ((model.encode window id value).run { buffer := List.replicate size 0 }).map
        fun ended => ended.1.map fun () => ended.2.written := by
  have room : Size.checkBuffer size = .ok () := if_pos small
  simp only [encodeToBytes, measured, room, bind, Except.bind]
  cases (model.encode window id value).run { buffer := List.replicate size 0 } <;> rfl

theorem Model.encodeToBytes_of_large {model : Model} {window size : Nat} {id : String}
    {value : Value} (measured : model.encodedSize window id value = .ok size)
    (large : 2 ^ 63 ≤ size) : model.encodeToBytes window id value = .error .bufferOverflow := by
  have full : Size.checkBuffer size = .error .bufferOverflow := if_neg (Nat.not_lt.mpr large)
  simp only [encodeToBytes, measured, full, bind, Except.bind]

/-- A value of a structure without a parity after an open field, which is not larger than a buffer can
be, is written if and only if it is valid. Otherwise it is refused with its first violation: no writer
runs out of room, and no parity misses its message. For a larger value, valid or not, there is no
buffer to write it to. -/
theorem encodeToBytes_ok_iff_valid {document : Document} {window : Nat} {source : String}
    {model : Model} {s : Struct} {value : Value} {size : Nat}
    (accepted : analyze document window source = .ok model) (member : s ∈ model.structs)
    (first : model.everyPart Struct.paritiesFirst s.id = true)
    (right : model.hasType s.id value = true)
    (measured : model.encodedSize window s.id value = .ok size) :
    (size < 2 ^ 63 →
      ((∃ bytes, model.encodeToBytes window s.id value = .ok (.ok bytes)) ↔
        model.valid s.id value = true) ∧
      (model.valid s.id value = false → ∃ e rest, model.violations s.id value = e :: rest ∧
        isViolation e = true ∧ model.encodeToBytes window s.id value = .ok (.error e))) ∧
    (2 ^ 63 ≤ size → model.encodeToBytes window s.id value = .error .bufferOverflow) := by
  constructor
  · intro small
    have formed : model.WellFormed window :=
      { coherent_of_analyze accepted with names := names_of_analyze accepted }
    have made := (made_of_analyze accepted).structs
    rw [Model.encodeToBytes_of_small measured small]
    obtain rfl := (Size.check_eq_ok.mp
      ((Model.encode_accounts formed made member right).measured.symm.trans measured)).1
    have ready : Ready { buffer := List.replicate ((model.wireBits s.id value).length / 8) 0 } :=
      ⟨rfl, by rw [List.length_replicate, Size.bound]; omega⟩
    have ended := formed.encode_judges made member first right ready (Nat.zero_le _)
      (by simp [Writer.remaining])
    have unviolated := formed.violations_eq_nil right
    have violates := isViolation_meaningOr model.structs.reverse s.id value
    cases found : model.violations s.id value with
    | nil =>
      rw [found] at ended
      obtain ⟨_, after, run⟩ := ended
      have valid := unviolated.mp found
      rw [run]
      simp [valid, Except.map]
    | cons e rest =>
      rw [found] at ended
      obtain ⟨after, run⟩ := ended
      have invalid : model.valid s.id value = false := by
        rw [found] at unviolated
        simpa using unviolated
      rw [run]
      have own : isViolation e = true := violates e (by
        show e ∈ model.violations s.id value
        simp [found])
      simp [invalid, own, Except.map]
  · exact fun large => Model.encodeToBytes_of_large measured large

def fleetDocument : Document where
  ranges := [⟨"'0x0001'", "#fleet"⟩]
  structs := [
    ("0x0001", [
      ⟨"u(16)", "fleet_descriptor", "'0x0001'"⟩,
      ⟨"u(8)", "ship_count", ""⟩,
      ⟨"b(64)", "parity", "LDPC(88, 24)"⟩,
      ⟨"[=ship_count=]*u(8)", "ships", "struct\x7bShip\x7d"⟩]),
    ("Ship", [⟨"u(3)", "rank", ""⟩, ⟨"u(5)", "crew", ""⟩])]

def shipStruct : Struct where
  key := "Ship"
  id := "Ship"
  kind := "ship"
  role := .nested
  fields := [
    ⟨"rank", .bitfield, 3, .none, none, false⟩,
    ⟨"crew", .bitfield, 5, .none, none, false⟩]
  sizeBits := 8
  descriptor := none

def fleetStruct : Struct where
  key := "0x0001"
  id := "Fleet"
  kind := "fleet"
  role := .packet
  fields := [
    ⟨"fleet_descriptor", .descriptor, 16, .none, some 1, false⟩,
    ⟨"ship_count", .scalar false, 8, .none, none, false⟩,
    ⟨"parity", .parity ⟨88, 24⟩, 64, .none, none, false⟩,
    ⟨"ships", .struct "Ship", 8, .fieldRef 1, none, false⟩]
  sizeBits := 88
  descriptor := some 1

def fleetModel : Model where
  source := "fleet"
  structs := [shipStruct, fleetStruct]
  descriptors := ⟨[("fleet", 1)]⟩
  substructs := ["Ship"]

theorem analyze_fleet : analyze fleetDocument 32 "fleet" = .ok fleetModel :=
  ok_of_toOption (by decide +kernel)

/-- Two ships, the second with more rank and crew than its fields can hold. -/
def fleetValue : Value := .record [
  ("ship_count", .unsigned 2),
  ("ships", .list [
    .record [("rank", .unsigned 1), ("crew", .unsigned 5)],
    .record [("rank", .unsigned 9), ("crew", .unsigned 40)]])]

theorem fleet_refused :
    fleetModel.everyPart Struct.paritiesFirst fleetStruct.id = true ∧
    fleetModel.hasType fleetStruct.id fleetValue = true ∧
    fleetModel.encodedSize 32 fleetStruct.id fleetValue = .ok 13 ∧
    fleetModel.encodeToBytes 32 fleetStruct.id fleetValue =
      .ok (.error (.invalidScalarValue "Ship" "rank" 9 7)) := by
  have first : fleetModel.everyPart Struct.paritiesFirst fleetStruct.id = true := by decide
  have right : fleetModel.hasType fleetStruct.id fleetValue = true := by decide +kernel
  have measured : fleetModel.encodedSize 32 fleetStruct.id fleetValue = .ok 13 :=
    ok_of_toOption (by decide +kernel)
  have violations : fleetModel.violations fleetStruct.id fleetValue = [
      .invalidScalarValue "Ship" "rank" 9 7, .invalidScalarValue "Ship" "crew" 40 31] := by
    decide +kernel
  obtain ⟨e, rest, found, -, refused⟩ :=
    ((encodeToBytes_ok_iff_valid analyze_fleet (.tail _ (.head _)) first right measured).1
      (by decide)).2 (by decide +kernel)
  cases violations.symm.trans found
  exact ⟨first, right, measured, refused⟩

/-- A packet with as many bytes of padding as a count of eight bytes says. -/
def voidDocument : Document where
  ranges := [⟨"'0x0001'", "#void"⟩]
  structs := [("0x0001", [
    ⟨"u(16)", "void_descriptor", "'0x0001'"⟩,
    ⟨"u(64)", "length", ""⟩,
    ⟨"[=length=]*u(8)", "padding", ""⟩])]

def voidModel : Model where
  source := "void"
  structs := [
    { key := "0x0001", id := "Void", kind := "void", role := .packet
      fields := [
        ⟨"void_descriptor", .descriptor, 16, .none, some 1, false⟩,
        ⟨"length", .scalar false, 64, .none, none, false⟩,
        ⟨"padding", .padding, 8, .fieldRef 1, none, false⟩]
      sizeBits := 80, descriptor := some 1 }]
  descriptors := ⟨[("void", 1)]⟩

/-- The size of a valid value can be computed, though no buffer is as large. -/
theorem void_exceeds_buffers :
    analyze voidDocument 32 "void" = .ok voidModel ∧
    voidModel.everyPart Struct.paritiesFirst "Void" = true ∧
    voidModel.hasType "Void" (.record [("length", .unsigned (2 ^ 63))]) = true ∧
    voidModel.valid "Void" (.record [("length", .unsigned (2 ^ 63))]) = true ∧
    voidModel.encodedSize 32 "Void" (.record [("length", .unsigned (2 ^ 63))]) =
      .ok (2 ^ 63 + 10) ∧
    voidModel.encodeToBytes 32 "Void" (.record [("length", .unsigned (2 ^ 63))]) =
      .error .bufferOverflow :=
  ⟨ok_of_toOption (by decide +kernel), by decide +kernel, by decide +kernel, by decide +kernel,
    ok_of_toOption (by decide +kernel), rfl⟩

end PacketSpec
