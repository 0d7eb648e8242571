import PacketSpec.Proofs.Builder.Success
import PacketSpec.Proofs.Model.WellFormed

/-! Building only adds to a model, and what is well formed stays so when more is added. -/
namespace PacketSpec

structure Model.Extends (model larger : Model) : Prop where
  enums : model.enums <+: larger.enums
  structs : model.structs <+: larger.structs
  substructs : model.substructs ⊆ larger.substructs

namespace Model.Extends

theorem refl (model : Model) : model.Extends model :=
  ⟨List.prefix_refl _, List.prefix_refl _, List.Subset.refl _⟩

theorem trans {a b c : Model} (first : a.Extends b) (second : b.Extends c) : a.Extends c :=
  ⟨first.enums.trans second.enums, first.structs.trans second.structs,
    List.Subset.trans first.substructs second.substructs⟩

theorem of_eq {model larger : Model} (enums : larger.enums = model.enums)
    (structs : larger.structs = model.structs) (substructs : larger.substructs = model.substructs) :
    model.Extends larger :=
  ⟨enums ▸ List.prefix_refl _, structs ▸ List.prefix_refl _, substructs ▸ List.Subset.refl _⟩

end Model.Extends

theorem WellFormedFields.mono {model larger : Model} {earlier more : List Struct}
    {fields : List Field} (grows : model.Extends larger) (ahead : earlier ⊆ more)
    (valid : WellFormedFields model earlier fields) : WellFormedFields larger more fields where
  ids := valid.ids
  payload := valid.payload
  each := valid.each
  counts := valid.counts
  structs field member typeId shape := by
    obtain ⟨listed, nested, found, facts⟩ := valid.structs field member typeId shape
    exact ⟨grows.substructs listed, nested, ahead found, facts⟩
  enums field member typeId shape := by
    obtain ⟨e, found, facts⟩ := valid.enums field member typeId shape
    exact ⟨e, grows.enums.subset found, facts⟩

variable {window : Nat}

theorem Struct.WellFormed.mono {model larger : Model} {earlier : List Struct} {s : Struct}
    (grows : model.Extends larger) (valid : s.WellFormed window model earlier) :
    s.WellFormed window larger earlier :=
  { valid with fields := valid.fields.mono grows (List.Subset.refl _) }

/-- A model to which neither structures nor nested type names are added. -/
theorem Model.Coherent.of_structs_eq {model larger : Model} (valid : model.Coherent window)
    (grows : model.Extends larger) (structs : larger.structs = model.structs)
    (substructs : larger.substructs = model.substructs)
    (enums : ∀ e ∈ larger.enums, e.WellFormed) : larger.Coherent window where
  structs earlier s later split := (valid.structs earlier s later (structs ▸ split)).mono grows
  substructs typeId listed := by
    rw [structs]
    exact valid.substructs typeId (substructs ▸ listed)
  enums := enums

theorem Model.mem_insertName {name other : String} {names : List String} :
    other ∈ Model.insertName name names ↔ other = name ∨ other ∈ names := by
  fun_induction Model.insertName name names with
  | case1 => simp
  | case2 => simp
  | case3 => simp
  | case4 first rest _ _ ih =>
    simp only [List.mem_cons, ih]
    exact or_left_comm

namespace Builder

/-- What every successful building step keeps: the model is coherent, and the outcomes that are
structures name structures of the model. -/
structure Context.Coherent (context : Context) (window : Nat) : Prop where
  model : context.model.Coherent window
  built : ∀ key id, (key, Built.struct id) ∈ context.built →
    ∃ s ∈ context.model.structs, s.id = id

/-- A change that leaves enumerations, structures and nested type names alone. -/
theorem Context.Coherent.of_model_eq {before after : Context} (valid : before.Coherent window)
    (built : after.built = before.built) (enums : after.model.enums = before.model.enums)
    (structs : after.model.structs = before.model.structs)
    (substructs : after.model.substructs = before.model.substructs) : after.Coherent window where
  model := valid.model.of_structs_eq (.of_eq enums structs substructs) structs substructs
    (enums ▸ valid.model.enums)
  built := by
    rw [built, structs]
    exact valid.built

/-- A step keeps a coherent context coherent, adds to its model only and ensures `post`. -/
def Builds {α : Type} (window : Nat) (step : Build α) (post : α → Model → Prop) : Prop :=
  ∀ ⦃before a after⦄, before.Coherent window → Yields step before a after →
    after.Coherent window ∧ before.model.Extends after.model ∧ post a after.model

end Builder

end PacketSpec
