import PacketSpec.Proofs.Builder.Field

/-! The rows of a table add well formed fields to a draft, one after the other. -/
namespace PacketSpec

theorem staticBitsOf_append (fields more : List Field) :
    staticBitsOf (fields ++ more) = staticBitsOf fields + staticBitsOf more := by
  induction fields with
  | nil => simp [staticBitsOf]
  | cons field rest ih => simp [staticBitsOf, ih, Nat.add_assoc]

namespace Builder

variable {window : Nat}

theorem numbered_toList (label : String) (k : Nat) :
    s!"{label}_{Text.decimal k}".toList = label.toList ++ '_' :: Nat.toDigits 10 k := by
  simp [toString, Text.decimal]

theorem numbered_injective {label : String} {j k : Nat}
    (same : s!"{label}_{Text.decimal j}" = s!"{label}_{Text.decimal k}") : j = k := by
  have texts := congrArg String.toList same
  rw [numbered_toList, numbered_toList, List.append_cancel_left_eq, List.cons.injEq] at texts
  rw [← Nat.ofDigitChars_ten_toDigits (n := j), texts.2, Nat.ofDigitChars_ten_toDigits]

theorem nodup_candidates (siblings : List Field) (label : String) :
    (candidates siblings label).Nodup := by
  refine List.nodup_cons.mpr ⟨?_, ?_⟩
  · intro member
    obtain ⟨k, -, same⟩ := List.mem_map.mp member
    have lengths := congrArg (fun text => text.toList.length) same
    rw [numbered_toList] at lengths
    simp at lengths
  · rw [List.nodup_iff_pairwise_ne, List.pairwise_map]
    refine List.nodup_range.imp ?_
    intro j k different same
    have := numbered_injective same
    omega

theorem isFree_iff {siblings : List Field} {id : String} :
    isFree siblings id = true ↔ ∀ sibling ∈ siblings, sibling.id ≠ id := by
  simp [isFree]

/-- Among one more candidate than there are siblings, one is free. -/
theorem exists_isFree (siblings : List Field) (label : String) :
    ∃ id ∈ candidates siblings label, isFree siblings id = true := by
  apply Classical.byContradiction
  intro missing
  have taken : candidates siblings label ⊆ siblings.map Field.id := by
    intro id member
    refine Classical.byContradiction fun absent => missing ⟨id, member, isFree_iff.mpr ?_⟩
    rintro sibling inside rfl
    exact absent (List.mem_map_of_mem inside)
  have shorter := (nodup_candidates siblings label).length_le_of_subset taken
  simp only [candidates, List.length_cons, List.length_map, List.length_range] at shorter
  omega

theorem freeId_fresh (siblings : List Field) (label : String) :
    ∀ sibling ∈ siblings, sibling.id ≠ freeId siblings label := by
  rw [freeId]
  cases found : (candidates siblings label).find? (isFree siblings) with
  | none =>
    obtain ⟨id, member, free⟩ := exists_isFree siblings label
    exact absurd free (List.find?_eq_none.mp found id member)
  | some chosen => exact isFree_iff.mp (List.find?_some found)

/-- The number behind a label is at most that of the row. -/
theorem freeId_number (siblings : List Field) (label : String) :
    freeId siblings label = label ∨
      ∃ number ≤ siblings.length + 1, freeId siblings label = s!"{label}_{Text.decimal number}" := by
  rw [freeId]
  cases found : (candidates siblings label).find? (isFree siblings) with
  | none => exact .inl rfl
  | some id =>
    rcases List.mem_cons.mp (List.mem_of_find?_eq_some found) with rfl | numbered
    · exact .inl rfl
    · obtain ⟨k, member, rfl⟩ := List.mem_map.mp numbered
      have inside := List.mem_range.mp member
      exact .inr ⟨k + 2, by omega, rfl⟩

theorem eq_freeId {siblings : List Field} {label id : String}
    (named : freshId siblings label = .ok id) : id = freeId siblings label := by
  obtain ⟨_, -, same⟩ := bind_eq_ok.mp named
  exact (pure_eq_ok.mp same).symm

/-- The counter is at most one step ahead of the number of the row. -/
theorem freshId_succeeds {siblings : List Field} (few : siblings.length + 2 < 1 <<< 31)
    (label : String) : freshId siblings label = .ok (freeId siblings label) := by
  have found := List.findIdx_lt_length.mpr (exists_isFree siblings label)
  have length : (candidates siblings label).length = siblings.length + 1 := by simp [candidates]
  rw [freshId, Size.checkCounter, if_pos (by omega)]
  rfl

structure Draft.Coherent (model : Model) (draft : Draft) : Prop where
  fields : WellFormedFields model model.structs draft.fields
  sizeBits : draft.sizeBits = staticBitsOf draft.fields
  descriptor : draft.descriptor = registeredBy draft.fields

theorem Draft.coherent_empty (model : Model) : Draft.Coherent model {} :=
  ⟨⟨by simp, by simp, by simp, by simp, by simp, by simp⟩, rfl, rfl⟩

theorem Draft.Coherent.mono {model larger : Model} {draft : Draft} (grows : model.Extends larger)
    (valid : draft.Coherent model) : draft.Coherent larger :=
  { valid with fields := valid.fields.mono grows grows.structs.subset }

theorem wellFormedFields_snoc {model : Model} {fields : List Field} {field : Field}
    (valid : WellFormedFields model model.structs fields)
    (fresh : ∀ sibling ∈ fields, sibling.id ≠ field.id) (follows : Follows model fields field) :
    WellFormedFields model model.structs (fields ++ [field]) where
  ids := by
    rw [List.map_append, List.nodup_append]
    refine ⟨valid.ids, by simp, ?_⟩
    intro id member other same
    obtain ⟨sibling, found, rfl⟩ := List.mem_map.mp member
    obtain rfl := List.mem_singleton.mp same
    exact fresh sibling found
  payload := by
    rw [List.countP_append, List.countP_singleton]
    split
    · next shape =>
      have others := follows.onePayload (beq_iff_eq.mp shape)
      have absent : fields.countP (·.shape == .payload) = 0 :=
        List.countP_eq_zero.mpr fun sibling member => by simpa using others sibling member
      omega
    · exact valid.payload
  each other member := by
    obtain earlier | same := List.mem_append.mp member
    · exact valid.each other earlier
    · exact List.mem_singleton.mp same ▸ follows.wellFormed
  counts position index other found reference := by
    rw [List.getElem?_append] at found
    split at found
    · obtain ⟨before, count, present, isCount⟩ :=
        valid.counts position index other found reference
      have inside : index < fields.length := (List.getElem?_eq_some_iff.mp present).1
      exact ⟨before, count, (List.getElem?_append_left inside).trans present, isCount⟩
    · next last =>
      have same : other = field := by
        have := List.mem_of_getElem? found
        simpa using this
      obtain ⟨count, present, isCount⟩ := follows.count index (same ▸ reference)
      have inside : index < fields.length := (List.getElem?_eq_some_iff.mp present).1
      exact ⟨by omega, count, (List.getElem?_append_left inside).trans present, isCount⟩
  structs other member typeId shape := by
    obtain earlier | same := List.mem_append.mp member
    · exact valid.structs other earlier typeId shape
    · exact follows.struct typeId (List.mem_singleton.mp same ▸ shape)
  enums other member typeId shape := by
    obtain earlier | same := List.mem_append.mp member
    · exact valid.enums other earlier typeId shape
    · exact follows.enum typeId (List.mem_singleton.mp same ▸ shape)

theorem staticBits_of_outside {field : Field}
    (outside : (field.shape == .payload || field.shape.isStruct) = true) :
    field.staticBits = 0 := by
  unfold Field.staticBits
  split <;> simp_all [Shape.isStruct]

theorem staticBits_of_wireBits? {field : Field} {bits : Option Nat}
    (inside : ¬ (field.shape == .payload || field.shape.isStruct) = true)
    (wire : field.wireBits? = .ok bits) : bits.getD 0 = field.staticBits := by
  obtain ⟨_, shape, width, repetition, _, _⟩ := field
  cases shape <;> cases repetition <;>
    simp_all [Field.wireBits?, Field.staticBits, map_eq_ok, Size.mul_eq_ok, Size.sub_eq_ok,
      Shape.isStruct, LdpcCode.parityBits] <;>
    grind

theorem add_eq_ok {draft extended : Draft} {field : Field} (h : draft.add field = .ok extended) :
    extended.fields = draft.fields ++ [field] ∧
      extended.sizeBits = draft.sizeBits + field.staticBits ∧
      extended.descriptor = draft.registeredCode field := by
  simp only [Draft.add] at h
  by_cases parity : field.shape.isParity = true <;>
    by_cases outside : (field.shape == .payload || field.shape.isStruct) = true <;>
    simp only [parity, outside, if_true, if_false, bind_eq_ok, pure_eq_ok, Size.add_eq_ok,
      Bool.false_eq_true] at h
  · obtain ⟨_, -, _, rfl, rfl⟩ := h
    exact ⟨rfl, by simp [staticBits_of_outside outside], rfl⟩
  · obtain ⟨_, -, bits, wire, _, ⟨rfl, -⟩, rfl⟩ := h
    exact ⟨rfl, by rw [← staticBits_of_wireBits? outside wire], rfl⟩
  · obtain ⟨_, -, _, -, _, rfl, rfl⟩ := h
    exact ⟨rfl, by simp [staticBits_of_outside outside], rfl⟩
  · obtain ⟨_, -, _, -, bits, wire, _, ⟨rfl, -⟩, rfl⟩ := h
    exact ⟨rfl, by rw [← staticBits_of_wireBits? outside wire], rfl⟩

theorem Draft.Coherent.add {model : Model} {draft extended : Draft} {field : Field}
    (valid : draft.Coherent model) (fresh : ∀ sibling ∈ draft.fields, sibling.id ≠ field.id)
    (follows : Follows model draft.fields field) (added : draft.add field = .ok extended) :
    extended.Coherent model := by
  obtain ⟨fields, sizeBits, descriptor⟩ := add_eq_ok added
  constructor
  · rw [fields]
    exact wellFormedFields_snoc valid.fields fresh follows
  · rw [fields, sizeBits, valid.sizeBits, staticBitsOf_append]
    rfl
  · have known := valid.descriptor
    rw [fields, descriptor]
    cases before : draft.fields with
    | nil => simp_all [Draft.registeredCode, registeredBy]
    | cons first rest => simp_all [Draft.registeredCode, registeredBy]

theorem registerDescriptor_builds (key kind : String) (code : Nat) :
    Builds window (registerDescriptor key kind code) fun _ _ => True := by
  intro before _ after valid run
  simp only [registerDescriptor, yields_bind, yields_get] at run
  obtain ⟨_, _, ⟨rfl, rfl⟩, run⟩ := run
  split at run
  · exact (yields_fail run).elim
  · obtain rfl := yields_modifyModel.mp run
    exact ⟨valid.of_model_eq rfl rfl rfl rfl, .of_eq rfl rfl rfl, trivial⟩

theorem buildTemplated_builds (row : RowRef) (anchor typeCell label : String) :
    Builds window (buildTemplated row anchor typeCell label) fun _ _ => True := by
  intro before _ after valid run
  simp only [buildTemplated, yields_bind, yields_get] at run
  obtain ⟨_, _, ⟨rfl, rfl⟩, run⟩ := run
  split at run
  · exact (yields_failAt run).elim
  · simp only [yields_bind, yields_readableAt, yields_ite, yields_failAt, false_and, exists_false,
      and_false, false_or, yields_modifyModel] at run
    obtain ⟨_, _, ⟨-, rfl⟩, -, _, _, registered, rfl⟩ := run
    obtain ⟨valid, grows, -⟩ := registerDescriptor_builds _ _ _ valid registered
    exact ⟨valid.of_model_eq rfl rfl rfl rfl, grows.trans (.of_eq rfl rfl rfl), trivial⟩

/-- Every row extends a coherent draft, over whatever its nested tables add to the model. -/
theorem buildRows_yields {document : Document} {nested : String → Build (Option String)}
    {key : String} {name : Option String} {rows : List FieldRow} {index : Nat} {draft : Draft}
    {before after : Context} {result : Rows}
    (inner : ∀ key, Builds window (nested key) NamesStruct)
    (valid : before.Coherent window) (coherent : draft.Coherent before.model)
    (run : Yields (buildRows document nested key name index rows draft) before result after) :
    after.Coherent window ∧ before.model.Extends after.model ∧
      ∀ finished, result = .fields finished → finished.Coherent after.model := by
  induction rows generalizing before index draft with
  | nil =>
    obtain ⟨rfl, rfl⟩ := yields_pure.mp run
    refine ⟨valid, .refl _, ?_⟩
    intro finished same
    injection same with same
    exact same ▸ coherent
  | cons raw rest ih =>
    simp only [buildRows, yields_bind, yields_readableAt] at run
    obtain ⟨marker, _, ⟨-, rfl⟩, label, _, ⟨-, rfl⟩, run⟩ := run
    split at run
    · simp only [yields_bind, yields_pure] at run
      obtain ⟨_, _, templated, rfl, rfl⟩ := run
      obtain ⟨valid, grows, -⟩ := buildTemplated_builds _ _ _ _ valid templated
      exact ⟨valid, grows, by simp⟩
    · simp only [yields_bind, yields_readableAt, yields_checked] at run
      obtain ⟨cell, _, ⟨-, rfl⟩, id, _, ⟨named, rfl⟩, field, _, built, extended, _, ⟨added, rfl⟩,
        run⟩ := run
      obtain ⟨valid, grows, sameId, follows⟩ := buildField_builds inner valid built
      have fresh := freeId_fresh draft.fields (Text.snakeCase label)
      rw [← eq_freeId named, ← sameId] at fresh
      have coherent := (coherent.mono grows).add fresh follows added
      obtain ⟨valid, more, finished⟩ := ih valid
        (by exact ⟨coherent.fields, coherent.sizeBits, coherent.descriptor⟩) run
      exact ⟨valid, grows.trans more, finished⟩

end Builder

end PacketSpec
