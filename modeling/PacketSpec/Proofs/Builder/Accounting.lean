import PacketSpec.Proofs.Builder.Evolution

/-! The bits that the rows of a table declare bound all that is computed from them: the elements of
a field, the totals of a draft and the widths that are packed. -/
namespace PacketSpec

open Cell (TypeCell TypeKind Marker)

@[simp] theorem Repetition.constantCount_none : Repetition.none.constantCount = 1 := rfl

@[simp] theorem Repetition.constantCount_constant (count : Nat) :
    (Repetition.constant count).constantCount = count := rfl

@[simp] theorem Repetition.constantCount_fieldRef (index : Nat) :
    (Repetition.fieldRef index).constantCount = 1 := rfl

/-- The number of elements that a type gives. An array whose length is a field counts as one. -/
def Cell.TypeCell.count (cell : TypeCell) : Nat :=
  match cell.multiplier with
  | some (.count n) => n
  | _ => 1

def Cell.TypeCell.bits (cell : TypeCell) : Nat := cell.width * cell.count

def FieldRow.bits (raw : FieldRow) : Nat :=
  match Cell.readType raw.type with
  | .ok cell => cell.bits
  | .error _ => 0

theorem FieldRow.bits_of_read {raw : FieldRow} {cell : TypeCell}
    (read : Cell.readType raw.type = .ok cell) : raw.bits = cell.bits := by
  -- The equation of the definition would be derived by running the reader.
  delta FieldRow.bits
  rw [read]

def rowBits (rows : List FieldRow) : Nat := (rows.map FieldRow.bits).sum

theorem rowBits_cons (raw : FieldRow) (rest : List FieldRow) :
    rowBits (raw :: rest) = raw.bits + rowBits rest := List.sum_cons

def packedBits (fields : List Field) : Nat := ((fields.filter Field.isPacked).map Field.width).sum

theorem packedBits_cons (field : Field) (rest : List Field) :
    packedBits (field :: rest) =
      (if field.isPacked then field.width else 0) + packedBits rest := by
  by_cases packed : field.isPacked = true <;> simp [packedBits, packed]

theorem packedBits_concat (fields : List Field) (field : Field) :
    packedBits (fields ++ [field]) =
      packedBits fields + if field.isPacked then field.width else 0 := by
  by_cases packed : field.isPacked = true <;> simp [packedBits, packed]

structure Field.Within (field : Field) (bits : Nat) : Prop where
  width : field.width ≤ bits
  elements : field.width * field.repetition.constantCount ≤ bits
  parity : ∀ code, field.shape = .parity code →
    code.messageBits ≤ code.codeBits ∧ code.parityBits ≤ bits

theorem Field.Within.wireBits? {field : Field} {bits : Nat} (within : field.Within bits)
    (small : bits < Size.bound) :
    ∃ wire, field.wireBits? = .ok wire ∧ wire.getD 0 ≤ bits := by
  have elements := within.elements
  unfold Field.wireBits?
  split
  · exact ⟨none, rfl, Nat.zero_le bits⟩
  · exact ⟨none, rfl, Nat.zero_le bits⟩
  · next code shape _ =>
    obtain ⟨ordered, fits⟩ := within.parity code shape
    exact ⟨some code.parityBits, map_eq_ok.mpr ⟨_, Size.sub_eq_ok.mpr ⟨rfl, ordered⟩, rfl⟩, fits⟩
  · next count repetition _ _ =>
    rw [repetition, Repetition.constantCount_constant] at elements
    exact ⟨some (field.width * count), map_eq_ok.mpr ⟨_, Size.check_of_lt (by omega), rfl⟩, elements⟩
  · next repetition _ _ =>
    rw [repetition, Repetition.constantCount_none, Nat.mul_one] at elements
    exact ⟨some field.width, rfl, elements⟩

def Document.tableBits (document : Document) (key : String) : Nat :=
  rowBits (document.fieldRows key)

namespace Builder

def Outline.bits (o : Outline) : Nat := o.width * o.repetition.constantCount

/-- Single bits that are joined are as many as the elements were. -/
theorem resolveRepetition_bits {row : RowRef} {siblings : List Field} {id : String}
    {cell : TypeCell} {repetition : Repetition} {before after : Context}
    (run : Yields (resolveRepetition row siblings id cell.multiplier) before repetition after)
    (marker : Marker) :
    (joinBits marker cell cell.width repetition).1 *
      (joinBits marker cell cell.width repetition).2.constantCount = cell.bits := by
  have kept : cell.width * repetition.constantCount = cell.bits := by
    unfold Cell.TypeCell.bits Cell.TypeCell.count
    unfold resolveRepetition at run
    split at run
    · next single =>
      obtain ⟨rfl, -⟩ := yields_pure.mp run
      rw [single, Repetition.constantCount_none]
    · exact (yields_failAt run).elim
    · next one =>
      obtain ⟨rfl, -⟩ := yields_pure.mp run
      rw [one, Repetition.constantCount_none]
    · next count _ _ repeated =>
      obtain ⟨rfl, -⟩ := yields_pure.mp run
      rw [repeated, Repetition.constantCount_constant]
    · next name reference =>
      obtain ⟨index, -, rfl⟩ := yields_map.mp run
      rw [reference, Repetition.constantCount_fieldRef]
  cases repetition with
  | none => exact kept
  | fieldRef => exact kept
  | constant count =>
    have outcome : joinBits marker cell cell.width (.constant count) = (cell.width, .constant count) ∨
        joinBits marker cell cell.width (.constant count) = (count, .none) ∧ cell.width = 1 := by
      cases marker <;> grind [joinBits]
    rcases outcome with same | ⟨joined, single⟩
    · rw [same]
      exact kept
    · rw [joined, ← kept, single]
      simp

theorem checkParity_bits {o : Outline} {code : LdpcCode} {bitsBefore : Nat} {u : Unit}
    {before after : Context} (run : Yields (checkParity o code bitsBefore) before u after) :
    code.messageBits ≤ code.codeBits ∧ code.parityBits = o.bits := by
  simp only [checkParity, yields_ite, yields_bind, yields_failAt, false_and, exists_false,
    and_false, false_or] at run
  obtain ⟨-, -, run⟩ := run
  unfold Outline.bits LdpcCode.parityBits
  split at run <;>
    simp only [yields_bind, yields_map, yields_checked, yields_ite, yields_failAt, yields_pure,
      and_false, false_or, bne_iff_ne, ne_eq, Decidable.not_not, Size.sub_eq_ok,
      Size.mul_eq_ok] at run
  · next single =>
    obtain ⟨_, _, ⟨rfl, -⟩, _, _, ⟨⟨rfl, ordered⟩, -⟩, same, -⟩ := run
    rw [single, Repetition.constantCount_none, Nat.mul_one]
    exact ⟨ordered, (Option.some.inj same).symm⟩
  · next count repetition =>
    obtain ⟨_, _, ⟨_, ⟨⟨rfl, -⟩, -⟩, rfl⟩, _, _, ⟨⟨rfl, ordered⟩, -⟩, same, -⟩ := run
    rw [repetition, Repetition.constantCount_constant]
    exact ⟨ordered, (Option.some.inj same).symm⟩
  · obtain ⟨_, _, ⟨rfl, -⟩, _, _, -, same, -⟩ := run
    cases same

theorem Counted.one_le {siblings : List Field} {repetition : Repetition}
    (counted : Counted siblings repetition) : 1 ≤ repetition.constantCount := by
  cases repetition with
  | none => exact Nat.le_refl 1
  | fieldRef => exact Nat.le_refl 1
  | constant count =>
    have several := counted.several count rfl
    exact Nat.le_of_succ_le several

theorem shapeField_within {document : Document} {nested : String → Build (Option String)}
    {o : Outline} {kind : TypeKind} {marker : Marker} {bitsBefore : Nat} {field : Field}
    {before after : Context} (several : 1 ≤ o.repetition.constantCount)
    (run : Yields (shapeField document nested o kind marker bitsBefore) before field after) :
    field.Within o.bits := by
  have width : o.width ≤ o.bits := Nat.le_mul_of_pos_right _ several
  cases marker with
  | payload =>
    obtain ⟨rfl, -⟩ := yields_pure.mp run
    exact ⟨width, Nat.le_refl _, by simp⟩
  | ldpc codeBits messageBits =>
    simp only [shapeField, yields_bind, yields_pure] at run
    obtain ⟨_, _, checked, rfl, -⟩ := run
    obtain ⟨ordered, bits⟩ := checkParity_bits checked
    refine ⟨width, ?_, ?_⟩
    · rw [Repetition.constantCount_none, Nat.mul_one]
      exact width
    · rintro code ⟨rfl⟩
      exact ⟨ordered, Nat.le_of_eq bits⟩
  | struct key =>
    simp only [shapeField, yields_bind, yields_pure] at run
    obtain ⟨_, _, -, rfl, -⟩ := run
    exact ⟨width, Nat.le_refl _, by simp⟩
  | enum key =>
    simp only [shapeField, yields_ite, yields_bind, yields_failAt, yields_pure, false_and,
      exists_false, and_false, false_or] at run
    obtain ⟨-, _, _, -, rfl, -⟩ := run
    exact ⟨width, Nat.le_refl _, by simp⟩
  | string =>
    simp only [shapeField, yields_ite, yields_bind, yields_failAt, false_and, exists_false,
      and_false, false_or] at run
    obtain ⟨-, run⟩ := run
    split at run
    · obtain ⟨rfl, -⟩ := yields_pure.mp run
      exact ⟨width, Nat.le_refl _, by simp⟩
    · next count repetition =>
      simp only [yields_bind, yields_checked, yields_pure, Size.mul_eq_ok] at run
      obtain ⟨_, _, ⟨⟨rfl, -⟩, -⟩, rfl, -⟩ := run
      have bits : o.width * count = o.bits := by rw [Outline.bits, repetition]; rfl
      rw [← bits]
      exact ⟨Nat.le_refl _, by simp, by simp⟩
    · simp only [yields_ite, yields_pure, yields_failAt, and_false, or_false] at run
      obtain ⟨-, rfl, -⟩ := run
      exact ⟨width, Nat.le_refl _, by simp⟩
  | fixed value =>
    simp only [shapeField, yields_bind, yields_pure] at run
    obtain ⟨_, _, typed, _, _, -, rfl, -⟩ := run
    exact ⟨width, Nat.le_refl _, fun code shape => absurd shape (typedShape_ne_parity typed code)⟩
  | none | template =>
    simp only [shapeField, yields_bind, yields_pure] at run
    obtain ⟨_, _, typed, rfl, -⟩ := run
    exact ⟨width, Nat.le_refl _, fun code shape => absurd shape (typedShape_ne_parity typed code)⟩

theorem buildField_within {document : Document} {nested : String → Build (Option String)}
    {row : RowRef} {siblings : List Field} {cell : TypeCell} {id : String} {marker : Marker}
    {bitsBefore : Nat} {field : Field} {before after : Context}
    (run : Yields (buildField document nested row siblings cell id marker bitsBefore)
      before field after) : field.Within cell.bits := by
  simp only [buildField, yields_ite, yields_bind, yields_failAt, yields_pure, false_and,
    exists_false, and_false, false_or] at run
  obtain ⟨width, repetition, _, resolved, field, _, shaped, -, rfl, -⟩ := run
  have positive : 0 < cell.width := by
    simp only [beq_iff_eq] at width
    omega
  obtain ⟨-, counted⟩ := resolveRepetition_yields resolved
  have several := (joinBits_counted marker cell positive counted).2.one_le
  have within := shapeField_within several shaped
  rw [Outline.bits, resolveRepetition_bits resolved marker] at within
  exact ⟨within.width, within.elements, within.parity⟩

structure Draft.Within (draft : Draft) (bits : Nat) : Prop where
  size : draft.sizeBits ≤ bits
  sinceParity : draft.bitsSinceParity ≤ bits
  packed : packedBits draft.fields ≤ bits

theorem Draft.within_empty : Draft.Within {} 0 := ⟨Nat.le_refl 0, Nat.le_refl 0, Nat.le_refl 0⟩

/-- Both totals are computed before the field is added. -/
theorem Draft.add_eq (draft : Draft) (field : Field) : draft.add field =
    (if field.shape.isParity then pure 0
      else Size.mul field.width field.repetition.constantCount >>=
        Size.add draft.bitsSinceParity) >>= fun bitsSinceParity =>
    (if field.shape == .payload || field.shape.isStruct then pure draft.sizeBits
      else field.wireBits? >>= fun wire => Size.add draft.sizeBits (wire.getD 0)) >>= fun sizeBits =>
    pure { draft with
      fields := draft.fields ++ [field], sizeBits, bitsSinceParity
      descriptor := draft.registeredCode field } := by
  unfold Draft.add
  cases field.repetition <;> cases field.shape.isParity <;>
    cases (field.shape == .payload || field.shape.isStruct) <;> simp

theorem Draft.Within.add_succeeds {draft : Draft} {field : Field} {used bits : Nat}
    (within : draft.Within used) (fits : field.Within bits) (small : used + bits < Size.bound) :
    Succeeds (draft.add field) := by
  have elements := fits.elements
  have size := within.size
  have sinceParity := within.sinceParity
  rw [Draft.add_eq]
  apply Succeeds.bind
  · split
    · exact .pure 0
    · apply Succeeds.bind ⟨_, Size.check_of_lt (by omega)⟩
      intro product multiplied
      obtain ⟨rfl, -⟩ := Size.mul_eq_ok.mp multiplied
      exact ⟨_, Size.check_of_lt (by omega)⟩
  · intro _ _
    apply Succeeds.bind _ fun _ _ => .pure _
    split
    · exact .pure draft.sizeBits
    · obtain ⟨wire, wired, wireFits⟩ := fits.wireBits? (by omega)
      apply Succeeds.bind ⟨wire, wired⟩
      intro other same
      obtain rfl := Except.ok.inj (wired.symm.trans same)
      exact ⟨_, Size.check_of_lt (by omega)⟩

theorem Draft.Within.add {draft extended : Draft} {field : Field} {used bits : Nat}
    (within : draft.Within used) (fits : field.Within bits) (small : used + bits < Size.bound)
    (added : draft.add field = .ok extended) : extended.Within (used + bits) := by
  have size := within.size
  have sinceParity := within.sinceParity
  have packed := within.packed
  have width := fits.width
  have elements := fits.elements
  obtain ⟨-, -, declared⟩ := add_bounds added (by omega)
  obtain ⟨fields, total, -⟩ := add_eq_ok added
  constructor
  · have static : field.staticBits ≤ bits := by
      by_cases outside : (field.shape == .payload || field.shape.isStruct) = true
      · rw [staticBits_of_outside outside]
        exact Nat.zero_le bits
      · obtain ⟨wire, wired, wireFits⟩ := fits.wireBits? (by omega)
        rwa [← staticBits_of_wireBits? outside wired]
    omega
  · rw [declared]
    split <;> omega
  · rw [fields, packedBits_concat]
    split <;> omega

/-- By induction on the rows: what they declare bounds the totals of the draft. -/
theorem buildRows_within {document : Document} {nested : String → Build (Option String)}
    {key : String} {name : Option String} {rows : List FieldRow} {index used : Nat}
    {draft finished : Draft} {before after : Context}
    (run : Yields (buildRows document nested key name index rows draft) before (.fields finished)
      after)
    (within : draft.Within used) (small : used + rowBits rows < Size.bound) :
    finished.Within (used + rowBits rows) := by
  induction rows generalizing before index used draft with
  | nil =>
    obtain ⟨same, -⟩ := yields_pure.mp run
    cases same
    exact within
  | cons raw rest ih =>
    rw [rowBits_cons, ← Nat.add_assoc] at small ⊢
    simp only [buildRows, yields_bind, yields_readableAt] at run
    obtain ⟨marker, _, ⟨-, rfl⟩, label, before, ⟨-, rfl⟩, run⟩ := run
    split at run
    · simp only [yields_bind, yields_pure] at run
      obtain ⟨_, _, -, same, -⟩ := run
      cases same
    · simp only [yields_bind, yields_readableAt, yields_checked] at run
      obtain ⟨cell, _, ⟨typed, rfl⟩, id, _, ⟨-, rfl⟩, field, middle, built, extended, _,
        ⟨added, rfl⟩, run⟩ := run
      rw [FieldRow.bits_of_read typed] at small ⊢
      have more := within.add (buildField_within built) (by omega) added
      exact ih run ⟨more.size, more.sinceParity, more.packed⟩ small

end Builder

end PacketSpec
