import PacketSpec.Proofs.Accepted
import PacketSpec.Proofs.Builder.Consistency

/-! The model of an accepted document is reached by the changes that building makes, so its tables
agree, what it holds is made as it should be, and no two of its descriptor codes are the same. -/
namespace PacketSpec

open Builder

theorem forM_evolves {α : Type} {items : List α} {step : α → Build Unit}
    (each : ∀ item, Evolves (step item)) : Evolves (items.forM step) := by
  induction items with
  | nil => exact (still_pure ()).evolves
  | cons item rest ih => exact (each item).bind fun _ => ih

theorem build_evolves (document : Document) (window : Nat) (key : String) (name : Option String)
    (role : Role) : Evolves (build document window key name role) :=
  TableEnd.evolves (buildTable_end document window _ key name role)

theorem buildTemplate_evolves (document : Document) (window : Nat) (template : TemplateRow) :
    Evolves (buildTemplate document window template) := by
  apply (still_readable _ _).evolves.bind
  intro anchor before
  apply outcome_bind (motive := fun outcome => Changes before outcome.2)
  · intro stop after run
    exact (buildStruct_evolves _ _ _ _ _).of_run run
  · intro result middle run
    have changes := (buildStruct_evolves _ _ _ _ _).of_run run
    cases result with
    | none => exact changes
    | some id =>
      -- A type name is only returned for a table whose outcome is a structure.
      rw [buildStruct_eq] at run
      obtain ⟨built, building, same⟩ := yields_map.mp run
      have recorded := build_records building
      cases built with
      | struct other =>
        obtain rfl : id = other := Option.some.inj same
        exact changes.tail (.template anchor recorded)
      | templated => cases same
      | empty => cases same

theorem buildCodes_evolves (document : Document) (window count code : Nat) :
    Evolves (buildCodes document window count code) := by
  induction count generalizing code with
  | zero => exact (still_pure ()).evolves
  | succ count ih =>
    apply (build_evolves _ _ _ _ _).bind
    intro built
    cases built with
    | empty => exact (still_pure ()).evolves
    | struct | templated => exact ih (code + 1)

theorem buildRange_evolves (document : Document) (window : Nat) (range : RangeRow) :
    Evolves (buildRange document window range) := by
  apply (still_readable _ _).evolves.bind
  intro codes
  simp only [fail_bind, evolves_ite]
  constructor
  · exact fun _ => (still_fail _).evolves
  · exact fun _ => buildCodes_evolves _ _ _ _

theorem buildAll_evolves (document : Document) (window : Nat) :
    Evolves (buildAll document window) :=
  (forM_evolves (buildTemplate_evolves document window)).bind fun _ =>
    forM_evolves (buildRange_evolves document window)

structure Builder.Context.Sound (context : Context) : Prop where
  structs : ∀ s ∈ context.model.structs, s.Made
  enums : ∀ e ∈ context.model.enums, e.Made
  templated : ∀ t ∈ context.model.templated, t.Made ∧
    ∃ s ∈ context.model.structs, s.id = t.templateId
  templates : ∀ anchor id, (anchor, id) ∈ context.templates →
    ∃ s ∈ context.model.structs, s.id = id

theorem sound_new (source : String) : (Context.new source).Sound :=
  ⟨by simp [Context.new], by simp [Context.new], by simp [Context.new], by simp [Context.new]⟩

theorem Builder.Change.sound {before after : Context} (change : Change before after)
    (consistent : before.Consistent) (sound : before.Sound) : after.Sound := by
  cases change with
  | enum fresh made => exact { sound with enums := forall_concat sound.enums made }
  | substruct => exact { sound with }
  | empty => exact { sound with }
  | @struct s awaits lacks made =>
    have kept {id : String} (known : ∃ t ∈ before.model.structs, t.id = id) :
        ∃ t ∈ before.model.structs ++ [s], t.id = id := by
      obtain ⟨t, member, same⟩ := known
      exact ⟨t, List.mem_append_left _ member, same⟩
    exact {
      structs := forall_concat sound.structs made
      enums := sound.enums
      templated := fun t member => ⟨(sound.templated t member).1, kept (sound.templated t member).2⟩
      templates := fun anchor id member => kept (sound.templates anchor id member) }
  | templated awaits lacks template made =>
    obtain ⟨anchor, member⟩ := template
    exact { sound with
      templated := forall_concat sound.templated ⟨made, sound.templates anchor _ member⟩ }
  | @template key id anchor built =>
    obtain ⟨s, member, -, same⟩ := (consistent.built key id).mp built
    refine { sound with templates := ?_ }
    intro other name listed
    rcases List.mem_cons.mp listed with first | later
    · obtain ⟨rfl, rfl⟩ := Prod.mk.inj first
      exact ⟨s, member, same⟩
    · exact sound.templates other name later

theorem Builder.Changes.sound {before after : Context} (changes : Changes before after)
    (consistent : before.Consistent) (sound : before.Sound) : after.Sound := by
  induction changes with
  | refl => exact sound
  | tail changes change ih => exact change.sound (Changes.consistent changes consistent) ih

/-- What an accepted model satisfies beside its good form. -/
structure Model.Made (model : Model) : Prop where
  structs : ∀ s ∈ model.structs, s.Made
  enums : ∀ e ∈ model.enums, e.Made
  templated : ∀ t ∈ model.templated, t.Made ∧ ∃ s ∈ model.structs, s.id = t.templateId
  descriptors : model.descriptors.entries.Perm (model.structs.filterMap Struct.registration ++
    model.templated.map TemplatedStruct.registration)
  codes : (model.descriptors.entries.map fun entry => clearFlag entry.2).Nodup

theorem made_of_analyze {document : Document} {window : Nat} {source : String} {model : Model}
    (accepted : analyze document window source = .ok model) : model.Made := by
  obtain ⟨context, run, rfl, codes, -⟩ := analyze_eq_ok accepted
  have changes : Changes (Context.new source) context :=
    (buildAll_evolves document window).of_run run
  have consistent := changes.consistent (consistent_new source)
  have sound := changes.sound (consistent_new source) (sound_new source)
  have codes := (findRepeats_eq_nil codes).1
  rw [List.map_map] at codes
  exact ⟨sound.structs, sound.enums, sound.templated, consistent.descriptors, codes⟩

end PacketSpec
