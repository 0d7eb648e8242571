import PacketSpec.Proofs.Builder.Enum
import PacketSpec.Proofs.Size

/-! A row that is read becomes a well formed field whose references are resolved. -/
namespace PacketSpec.Builder

open Cell (TypeCell TypeKind Marker)

variable {window : Nat} {before after : Context}

/-- What a row establishes of its field by itself, after the fields `siblings`. -/
structure Placed (model : Model) (siblings : List Field) (field : Field) : Prop where
  wellFormed : field.WellFormed
  count : ∀ index, field.repetition = .fieldRef index →
    ∃ count, siblings[index]? = some count ∧ count.IsCount
  struct : ∀ typeId, field.shape = .struct typeId →
    typeId ∈ model.substructs ∧
    ∃ nested ∈ model.structs, nested.id = typeId ∧ nested.payloadField? = none
  enum : ∀ typeId, field.shape = .enum typeId →
    ∃ e ∈ model.enums, e.id = typeId ∧ e.WellFormed

structure Counted (siblings : List Field) (repetition : Repetition) : Prop where
  several : ∀ count, repetition = .constant count → 2 ≤ count
  count : ∀ index, repetition = .fieldRef index →
    ∃ count, siblings[index]? = some count ∧ count.IsCount

theorem counted_none (siblings : List Field) : Counted siblings .none := ⟨by simp, by simp⟩

theorem resolveCount_yields {row : RowRef} {siblings : List Field} {name : String} {index : Nat}
    (run : Yields (resolveCount row siblings name) before index after) :
    after = before ∧ ∃ count, siblings[index]? = some count ∧ count.IsCount := by
  simp only [resolveCount] at run
  split at run
  · exact (yields_failAt run).elim
  · split at run
    · next count found =>
      simp only [yields_ite, yields_pure, yields_failAt, and_false, or_false] at run
      obtain ⟨accepted, rfl, rfl⟩ := run
      refine ⟨rfl, count, found, ?_⟩
      simpa [Field.IsCount] using accepted
    · exact (yields_failAt run).elim

theorem resolveRepetition_yields {row : RowRef} {siblings : List Field} {id : String}
    {multiplier : Option Cell.Multiplier} {repetition : Repetition}
    (run : Yields (resolveRepetition row siblings id multiplier) before repetition after) :
    after = before ∧ Counted siblings repetition := by
  unfold resolveRepetition at run
  split at run
  · obtain ⟨rfl, rfl⟩ := yields_pure.mp run
    exact ⟨rfl, counted_none siblings⟩
  · exact (yields_failAt run).elim
  · obtain ⟨rfl, rfl⟩ := yields_pure.mp run
    exact ⟨rfl, counted_none siblings⟩
  · next count notZero notOne =>
    obtain ⟨rfl, rfl⟩ := yields_pure.mp run
    refine ⟨rfl, ?_, by simp⟩
    intro other same
    injection same with same
    have positive : count ≠ 0 := fun h => notZero (h ▸ rfl)
    have notSingle : count ≠ 1 := fun h => notOne (h ▸ rfl)
    omega
  · obtain ⟨index, found, rfl⟩ := yields_map.mp run
    obtain ⟨rfl, count⟩ := resolveCount_yields found
    refine ⟨rfl, by simp, ?_⟩
    intro other same
    injection same with same
    exact same ▸ count

/-- Joined bits are as many as the elements were. -/
theorem joinBits_counted (marker : Marker) (cell : TypeCell) {width : Nat}
    {siblings : List Field} {repetition : Repetition} (positive : 0 < width)
    (counted : Counted siblings repetition) :
    0 < (joinBits marker cell width repetition).1 ∧
      Counted siblings (joinBits marker cell width repetition).2 := by
  cases repetition with
  | none => exact ⟨positive, counted⟩
  | fieldRef => exact ⟨positive, counted⟩
  | constant count =>
    have several := counted.several count rfl
    have outcome : joinBits marker cell width (.constant count) = (count, .none) ∨
        joinBits marker cell width (.constant count) = (width, .constant count) := by
      cases marker <;> grind [joinBits]
    rcases outcome with joined | kept
    · rw [joined]
      exact ⟨by omega, counted_none siblings⟩
    · rw [kept]
      exact ⟨positive, counted⟩

def IsPlain (shape : Shape) : Prop :=
  (∀ typeId, shape ≠ .struct typeId) ∧ ∀ typeId, shape ≠ .enum typeId

theorem isWordWidth_iff {width : Nat} : isWordWidth width = true ↔ width ∈ [8, 16, 32, 64] := by
  simp [isWordWidth, or_assoc]

theorem typedShape_yields {o : Outline} {kind : TypeKind} {shape : Shape}
    (positive : 0 < o.width) (run : Yields (typedShape o kind) before shape after) :
    after = before ∧ shape.Admits o.width o.repetition ∧ IsPlain shape := by
  simp only [typedShape, yields_ite, yields_pure, yields_failAt, and_false, false_or,
    or_false] at run
  rcases run with ⟨-, width, single, rfl, rfl⟩ | ⟨-, run⟩
  · simp only [Bool.not_eq_true', Bool.not_eq_false, Bool.or_eq_true, beq_iff_eq] at width
    refine ⟨rfl, ⟨?_, by simpa using single⟩, ⟨by simp, by simp⟩⟩
    simpa [or_assoc] using width
  rcases run with ⟨padding, rfl, rfl⟩ | ⟨-, run⟩
  · simp only [Bool.and_eq_true, beq_iff_eq] at padding
    exact ⟨rfl, ⟨positive, padding.2⟩, ⟨by simp, by simp⟩⟩
  rcases run with ⟨-, width, rfl, rfl⟩ | ⟨-, run⟩
  · exact ⟨rfl, by simpa [Shape.Admits] using width, ⟨by simp, by simp⟩⟩
  rcases run with ⟨narrow, single, rfl, rfl⟩ | ⟨-, run⟩
  · simp only [Bool.and_eq_true, decide_eq_true_eq] at narrow
    exact ⟨rfl, ⟨narrow.1.2, narrow.2, by simpa using single⟩, ⟨by simp, by simp⟩⟩
  rcases run with ⟨width, rfl, rfl⟩ | ⟨-, width, single, rfl, rfl⟩
  · exact ⟨rfl, isWordWidth_iff.mp width, ⟨by simp, by simp⟩⟩
  · simp only [Bool.and_eq_true, beq_iff_eq] at width
    exact ⟨rfl, ⟨positive, width.2, by simpa using single⟩, ⟨by simp, by simp⟩⟩

/-- A fixed value is stored as it is given, that of an 8-bit descriptor in the upper byte. -/
theorem fixedValue_stores {o : Outline} {shape : Shape} {value stored : Nat}
    (run : Yields (fixedValue o shape value) before stored after) :
    after = before ∧ o.repetition = .none ∧
      (shape.isScalar || shape == .bitfield || shape == .descriptor) = true ∧
      value ≤ maxOfWidth (if shape == .descriptor then min o.width 16 else o.width) ∧
      stored = if shape == .descriptor && o.width == 8 then value <<< 8 else value := by
  simp only [fixedValue, yields_ite, yields_bind, yields_failAt, yields_pure, false_and,
    exists_false, and_false, false_or, yields_checked, Size.mask_eq] at run
  obtain ⟨fixable, limit, _, ⟨same, rfl⟩, inRange, run⟩ := run
  cases same
  simp only [Bool.or_eq_true, not_or, bne_iff_ne, ne_eq, Decidable.not_not,
    Bool.not_eq_true', Bool.not_eq_false] at fixable
  rcases run with ⟨narrow, shifted, rfl⟩ | ⟨wide, rfl, rfl⟩
  · rw [if_pos narrow]
    exact ⟨rfl, fixable.1, by simpa using fixable.2, Nat.not_lt.mp inRange,
      (Size.shiftLeft_eq_ok.mp shifted).1⟩
  · rw [if_neg wide]
    exact ⟨rfl, fixable.1, by simpa using fixable.2, Nat.not_lt.mp inRange, rfl⟩

theorem fixedValue_yields {o : Outline} {shape : Shape} {value stored : Nat}
    (run : Yields (fixedValue o shape value) before stored after) :
    after = before ∧ o.repetition = .none ∧
      ∀ field : Field, field.shape = shape → field.width = o.width →
        field.repetition = o.repetition → field.Fixes stored := by
  obtain ⟨rfl, single, fixable, inRange, rfl⟩ := fixedValue_stores run
  refine ⟨rfl, single, ?_⟩
  intro field sameShape sameWidth sameRepetition
  refine ⟨sameRepetition.trans single, ?_⟩
  rw [sameShape, sameWidth]
  cases shape with
  | scalar => simpa using inRange
  | bitfield => simpa using inRange
  | descriptor =>
    simp only [BEq.rfl, if_true] at inRange
    by_cases narrow : o.width = 8
    · have inByte : value ≤ 255 := by simpa [narrow, maxOfWidth] using inRange
      have limit : maxOfWidth 16 = 65535 := rfl
      simp only [narrow, BEq.rfl, Bool.and_self, if_true, Nat.shiftLeft_eq, limit]
      omega
    · have limit : maxOfWidth (min o.width 16) ≤ maxOfWidth 16 := maxOfWidth_mono (by omega)
      simp only [beq_eq_false_iff_ne.mpr narrow, Bool.and_false, Bool.false_eq_true, if_false]
      exact ⟨by omega, fun h => absurd h narrow⟩
  | _ => simp [Shape.isScalar] at fixable

theorem parityBits_of_isByteAligned {code : LdpcCode} (aligned : code.isByteAligned = true) :
    0 < code.parityBits ∧ code.parityBits % 8 = 0 := by
  simp only [LdpcCode.isByteAligned, LdpcCode.parityBits, Bool.and_eq_true, decide_eq_true_eq,
    beq_iff_eq] at aligned ⊢
  omega

theorem checkParity_yields {o : Outline} {code : LdpcCode} {bitsBefore : Nat} {u : Unit}
    (run : Yields (checkParity o code bitsBefore) before u after) :
    after = before ∧ code.isByteAligned = true ∧ code.messageBits = bitsBefore := by
  simp only [checkParity, yields_ite, yields_bind, yields_failAt, false_and, exists_false,
    and_false, false_or] at run
  obtain ⟨aligned, covered, run⟩ := run
  refine ⟨?_, by simpa using aligned, by simpa using covered⟩
  split at run <;>
    simp only [yields_bind, yields_map, yields_checked, yields_ite, yields_failAt, yields_pure,
      and_false, false_or] at run
  · obtain ⟨_, _, ⟨-, rfl⟩, _, _, ⟨-, rfl⟩, -, -, rfl⟩ := run
    rfl
  · obtain ⟨_, _, ⟨_, ⟨-, rfl⟩, -⟩, _, _, ⟨-, rfl⟩, -, -, rfl⟩ := run
    rfl
  · obtain ⟨_, _, ⟨-, rfl⟩, _, _, ⟨-, rfl⟩, -, -, rfl⟩ := run
    rfl

def NamesStruct (result : Option String) (model : Model) : Prop :=
  ∀ id, result = some id → ∃ s ∈ model.structs, s.id = id

theorem nestedType_builds {nested : String → Build (Option String)} {row : RowRef} {key : String}
    (inner : Builds window (nested key) NamesStruct) :
    Builds window (nestedType nested row key) fun typeId model =>
      typeId ∈ model.substructs ∧
      ∃ s ∈ model.structs, s.id = typeId ∧ s.payloadField? = none := by
  intro before typeId after valid run
  simp only [nestedType, yields_bind] at run
  obtain ⟨result, _, built, run⟩ := run
  obtain ⟨valid, grows, names⟩ := inner valid built
  split at run
  · exact (yields_failAt run).elim
  · next id =>
    simp only [yields_bind, yields_get, yields_ite, yields_failAt, false_and, exists_false,
      and_false, false_or, yields_modifyModel, yields_pure] at run
    obtain ⟨_, middle, ⟨rfl, rfl⟩, noPayload, _, _, rfl, rfl, rfl⟩ := run
    -- The check looks at the first structure of this name, which is one of the model.
    have found : ∃ s ∈ middle.model.structs, s.id = typeId ∧ s.payloadField? = none := by
      obtain ⟨s, member, sameId⟩ := names typeId rfl
      cases first : middle.model.struct? typeId with
      | none =>
        have absent := List.find?_eq_none.mp first s member
        exact absurd sameId (by simpa using absent)
      | some s =>
        have sameId := List.find?_some first
        refine ⟨s, List.mem_of_find?_eq_some first, by simpa using sameId, ?_⟩
        simpa [first] using noPayload
    have more : middle.model.Extends { middle.model with
        substructs := Model.insertName typeId middle.model.substructs } :=
      ⟨List.prefix_refl _, List.prefix_refl _, fun _ h => Model.mem_insertName.mpr (.inr h)⟩
    refine ⟨⟨⟨?_, ?_, valid.model.enums⟩, valid.built⟩, grows.trans more,
      Model.mem_insertName.mpr (.inl rfl), found⟩
    · exact fun earlier s later split => (valid.model.structs earlier s later split).mono more
    · intro other listed
      obtain rfl | listed := Model.mem_insertName.mp listed
      · exact found
      · exact valid.model.substructs other listed

theorem placed_of_plain {model : Model} {siblings : List Field} {field : Field}
    (admits : field.shape.Admits field.width field.repetition) (plain : IsPlain field.shape)
    (counted : Counted siblings field.repetition) (notSeq : field.seq = false)
    (fixed : ∀ value, field.fixed = some value → field.Fixes value) :
    Placed model siblings field where
  wellFormed := ⟨admits, counted.several, fixed, by simp [notSeq]⟩
  count := counted.count
  struct typeId shape := absurd shape (plain.1 typeId)
  enum typeId shape := absurd shape (plain.2 typeId)

theorem shapeField_builds {document : Document} {nested : String → Build (Option String)}
    {o : Outline} {kind : TypeKind} {marker : Marker} {bitsBefore : Nat}
    {siblings : List Field} (positive : 0 < o.width) (counted : Counted siblings o.repetition)
    (inner : ∀ key, Builds window (nested key) NamesStruct) :
    Builds window (shapeField document nested o kind marker bitsBefore) fun field model =>
      field.id = o.id ∧ field.seq = false ∧ Placed model siblings field := by
  intro before field after valid run
  cases marker with
  | payload =>
    obtain ⟨rfl, rfl⟩ := yields_pure.mp run
    exact ⟨valid, .refl _, rfl, rfl,
      placed_of_plain positive ⟨by simp, by simp⟩ counted rfl (by simp)⟩
  | ldpc codeBits messageBits =>
    simp only [shapeField, yields_bind, yields_pure] at run
    obtain ⟨_, _, checked, rfl, rfl⟩ := run
    obtain ⟨rfl, aligned, -⟩ := checkParity_yields checked
    obtain ⟨someParity, wholeBytes⟩ := parityBits_of_isByteAligned aligned
    exact ⟨valid, .refl _, rfl, rfl,
      placed_of_plain ⟨someParity, wholeBytes, rfl⟩ ⟨by simp, by simp⟩ (counted_none _) rfl
        (by simp)⟩
  | struct key =>
    simp only [shapeField, yields_bind, yields_pure] at run
    obtain ⟨typeId, _, built, rfl, rfl⟩ := run
    obtain ⟨valid, grows, facts⟩ := nestedType_builds (inner key) valid built
    refine ⟨valid, grows, rfl, rfl, ⟨positive, counted.several, by simp, by simp⟩,
      counted.count, ?_, by simp⟩
    intro other same
    injection same with same
    exact same ▸ facts
  | enum key =>
    simp only [shapeField, yields_ite, yields_bind, yields_failAt, yields_pure, false_and,
      exists_false, and_false, false_or] at run
    obtain ⟨width, typeId, _, resolved, rfl, rfl⟩ := run
    obtain ⟨valid, grows, facts⟩ := resolveEnum_builds document key valid resolved
    simp only [Bool.not_eq_true', Bool.not_eq_false, Bool.or_eq_true, Bool.and_eq_true,
      decide_eq_true_eq, beq_iff_eq, isWordWidth_iff] at width
    refine ⟨valid, grows, rfl, rfl, ⟨?_, counted.several, by simp, by simp⟩,
      counted.count, by simp, ?_⟩
    · exact width.imp (fun narrow => ⟨positive, Nat.le_of_lt_succ narrow.1, narrow.2⟩) id
    · intro other same
      injection same with same
      exact same ▸ facts
  | string =>
    simp only [shapeField, yields_ite, yields_bind, yields_failAt, false_and,
      exists_false, and_false, false_or] at run
    obtain ⟨aligned, run⟩ := run
    simp only [bne_iff_ne, ne_eq, Decidable.not_not] at aligned
    split at run
    · next single =>
      obtain ⟨rfl, rfl⟩ := yields_pure.mp run
      exact ⟨valid, .refl _, rfl, rfl, placed_of_plain
        ⟨by omega, by show o.width = _; omega, single⟩ ⟨by simp, by simp⟩ counted rfl (by simp)⟩
    · next count repeated =>
      simp only [yields_bind, yields_checked, yields_pure, Size.mul_eq_ok] at run
      obtain ⟨width, _, ⟨⟨rfl, -⟩, rfl⟩, rfl, rfl⟩ := run
      have several := counted.several count repeated
      obtain ⟨size, whole⟩ : ∃ size, o.width = 8 * size := ⟨o.width / 8, by omega⟩
      have bits : o.width * count = 8 * (size * count) := by rw [whole, Nat.mul_assoc]
      have positive : 0 < size * count := Nat.mul_pos (by omega) (by omega)
      exact ⟨valid, .refl _, rfl, rfl, placed_of_plain
        ⟨by rw [bits]; omega, by show o.width * count = _; rw [bits]; omega, rfl⟩
        ⟨by simp, by simp⟩ (counted_none _) rfl (by simp)⟩
    · next index reference =>
      simp only [yields_ite, yields_pure, yields_failAt, and_false, or_false] at run
      obtain ⟨byte, rfl, rfl⟩ := run
      rw [beq_iff_eq] at byte
      exact ⟨valid, .refl _, rfl, rfl, placed_of_plain
        (by simp [Shape.Admits, byte]) ⟨by simp, by simp⟩ counted rfl (by simp)⟩
  | fixed value =>
    simp only [shapeField, yields_bind, yields_pure] at run
    obtain ⟨shape, _, typed, stored, _, fixed, rfl, rfl⟩ := run
    obtain ⟨rfl, admits, plain⟩ := typedShape_yields positive typed
    obtain ⟨rfl, -, fixes⟩ := fixedValue_yields fixed
    refine ⟨valid, .refl _, rfl, rfl, placed_of_plain admits plain counted rfl ?_⟩
    intro other same
    injection same with same
    exact same ▸ fixes _ rfl rfl rfl
  | none | template =>
    simp only [shapeField, yields_bind, yields_pure] at run
    obtain ⟨shape, _, typed, rfl, rfl⟩ := run
    obtain ⟨rfl, admits, plain⟩ := typedShape_yields positive typed
    exact ⟨valid, .refl _, rfl, rfl, placed_of_plain admits plain counted rfl (by simp)⟩

structure Follows (model : Model) (siblings : List Field) (field : Field) : Prop
    extends Placed model siblings field where
  onePayload : field.shape = .payload → ∀ sibling ∈ siblings, sibling.shape ≠ .payload

theorem buildField_builds {document : Document} {nested : String → Build (Option String)}
    {row : RowRef} {siblings : List Field} {cell : TypeCell} {id : String} {marker : Marker}
    {bitsBefore : Nat} (inner : ∀ key, Builds window (nested key) NamesStruct) :
    Builds window (buildField document nested row siblings cell id marker bitsBefore)
      fun field model => field.id = id ∧ Follows model siblings field := by
  intro before field after valid run
  simp only [buildField, yields_ite, yields_bind, yields_failAt, yields_pure, false_and,
    exists_false, and_false, false_or] at run
  obtain ⟨width, repetition, _, resolved, field, _, shaped, payload, rfl, rfl⟩ := run
  obtain ⟨rfl, counted⟩ := resolveRepetition_yields resolved
  have positive : 0 < cell.width := by
    simp only [beq_iff_eq] at width
    omega
  obtain ⟨positive, counted⟩ := joinBits_counted marker cell positive counted
  obtain ⟨valid, grows, sameId, notSeq, placed⟩ :=
    shapeField_builds positive counted inner valid shaped
  refine ⟨valid, grows, sameId, { placed with wellFormed := ⟨placed.wellFormed.shape,
    placed.wellFormed.several, placed.wellFormed.fixed, ?_⟩, onePayload := ?_ }⟩
  · intro seq
    simp only [Bool.and_eq_true, Bool.or_eq_true, beq_iff_eq] at seq
    exact ⟨seq.1.2, seq.2⟩
  · intro shape sibling member same
    simp only [Bool.and_eq_true, beq_iff_eq, List.any_eq_true, not_and, not_exists] at payload
    exact payload shape sibling member same

end PacketSpec.Builder
