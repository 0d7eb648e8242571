import PacketSpec.Proofs.Accepted
import PacketSpec.Proofs.Builder.Outcome
import PacketSpec.Proofs.Codegen.Planners

/-! A wider window closes the same chunks as long as the narrow one does not overflow. A document is
accepted only if no structure overflows its window, so each step of its analysis can be taken in a
wider window and leads to the same context. -/
namespace PacketSpec

variable {σ : Type}

namespace BitWindow

def resize (capacity : Nat) (window : BitWindow σ) : BitWindow σ := { window with capacity }

theorem isEmpty_resize (capacity : Nat) (window : BitWindow σ) :
    (window.resize capacity).isEmpty = window.isEmpty := rfl

/-- The capacity decides only whether a field overflows. -/
theorem push_resize {capacity : Nat} {window next : BitWindow σ} {symbol : σ} {width : Nat}
    {closed : Option (Chunk σ)} (wider : window.capacity ≤ capacity)
    (pushed : window.push symbol width = .ok (.ok closed, next)) :
    (window.resize capacity).push symbol width = .ok (.ok closed, next.resize capacity) ∧
      next.capacity ≤ capacity := by
  obtain ⟨used, added, pushed⟩ := bind_eq_ok.mp pushed
  have added : Size.add (window.resize capacity).used width = .ok used := added
  rw [push, added]
  by_cases overflow : window.capacity < used
  · rw [if_pos overflow] at pushed
    cases pushed
  · have room : ¬ (window.resize capacity).capacity < used := by
      show ¬ capacity < used
      omega
    rw [if_neg overflow] at pushed
    simp only [bind, Except.bind, if_neg room]
    by_cases closing : closes used = true
    · rw [if_pos closing] at pushed ⊢
      cases pushed
      exact ⟨rfl, wider⟩
    · rw [if_neg closing] at pushed ⊢
      cases pushed
      exact ⟨rfl, wider⟩

end BitWindow

theorem Plans.resize {label : Nat → Field → σ} {index capacity : Nat} {window : BitWindow σ}
    {fields : List Field} {chunks : List (Chunk σ)}
    (plans : Plans label index window fields chunks) (wider : window.capacity ≤ capacity) :
    Plans label index (window.resize capacity) fields chunks := by
  induction plans with
  | done empty => exact .done empty
  | packed packed pushed rest ih =>
    obtain ⟨pushed, wider⟩ := BitWindow.push_resize wider pushed
    exact .packed packed pushed (ih wider)
  | aligned wide empty rest ih => exact .aligned wide empty (ih wider)

theorem Codec.layoutFrom_resize {s : Struct} {capacity : Nat} {window : BitWindow Field}
    {fields : List Field} {segments : List Segment} (wider : window.capacity ≤ capacity)
    (laid : layoutFrom s window fields = .ok segments) :
    layoutFrom s (window.resize capacity) fields = .ok segments := by
  induction fields generalizing window segments with
  | nil => exact laid
  | cons field rest ih =>
    unfold layoutFrom at laid ⊢
    rw [BitWindow.isEmpty_resize]
    by_cases packed : field.isPacked = true
    · rw [if_pos packed] at laid ⊢
      obtain ⟨⟨outcome, next⟩, pushed, laid⟩ := bind_eq_ok.mp laid
      cases outcome with
      | error => cases laid
      | ok closed =>
        obtain ⟨pushed, wider⟩ := BitWindow.push_resize wider pushed
        rw [pushed]
        cases closed with
        | none => exact ih wider laid
        | some chunk =>
          obtain ⟨more, tail, same⟩ := bind_eq_ok.mp laid
          exact bind_eq_ok.mpr ⟨_, rfl, bind_eq_ok.mpr ⟨more, ih wider tail, same⟩⟩
    · rw [if_neg packed] at laid ⊢
      by_cases empty : window.isEmpty = true
      · rw [if_pos empty] at laid ⊢
        obtain ⟨more, tail, same⟩ := bind_eq_ok.mp laid
        exact bind_eq_ok.mpr ⟨more, ih wider tail, same⟩
      · rw [if_neg empty] at laid
        cases laid

/-- A structure that has a layout has the same one in a wider window. -/
theorem Codec.layout_widen {s : Struct} {window wider : Nat} {segments : List Segment}
    (le : window ≤ wider) (laid : layout window s = .ok segments) :
    layout wider s = .ok segments := by
  have resized : (BitWindow.empty window).resize wider = (BitWindow.empty wider : BitWindow Field) :=
    rfl
  rw [layout, ← resized]
  exact layoutFrom_resize le laid

namespace Builder

open Cell (TypeCell TypeKind Marker)

variable {α β : Type}

def Covers (narrow wide : Build α) : Prop :=
  ∀ ⦃before a after⦄, Yields narrow before a after → Yields wide before a after

theorem Covers.refl (step : Build α) : Covers step step := fun _ _ _ run => run

theorem Covers.bind {narrow wide : Build α} {next follow : α → Build β}
    (first : Covers narrow wide) (second : ∀ a, Covers (next a) (follow a)) :
    Covers (narrow >>= next) (wide >>= follow) := by
  intro before b after run
  obtain ⟨a, middle, stepped, run⟩ := yields_bind.mp run
  exact yields_bind.mpr ⟨a, middle, first stepped, second a run⟩

/-- Steps that differ only in what follows their common start. -/
theorem Covers.after {step : Build α} {next follow : α → Build β}
    (second : ∀ a, Covers (next a) (follow a)) : Covers (step >>= next) (step >>= follow) :=
  (Covers.refl step).bind second

theorem covers_ite {p : Prop} [Decidable p] {narrow wide narrow' wide' : Build α}
    (yes : Covers narrow wide) (no : Covers narrow' wide') :
    Covers (if p then narrow else narrow') (if p then wide else wide') := by
  split
  · exact yes
  · exact no

theorem covers_forM {items : List α} {narrow wide : α → Build Unit}
    (each : ∀ item, Covers (narrow item) (wide item)) :
    Covers (items.forM narrow) (items.forM wide) := by
  induction items with
  | nil => exact .refl _
  | cons item rest ih => exact (each item).bind fun _ => ih

section Nested

variable {narrow wide : String → Build (Option String)}

theorem nestedType_covers (nested : ∀ key, Covers (narrow key) (wide key)) (row : RowRef)
    (key : String) : Covers (nestedType narrow row key) (nestedType wide row key) :=
  (nested key).bind fun _ => .refl _

theorem shapeField_covers (document : Document) (nested : ∀ key, Covers (narrow key) (wide key))
    (o : Outline) (kind : TypeKind) (marker : Marker) (bitsBefore : Nat) :
    Covers (shapeField document narrow o kind marker bitsBefore)
      (shapeField document wide o kind marker bitsBefore) := by
  cases marker with
  | struct key => exact (nestedType_covers nested o.row key).bind fun _ => .refl _
  | payload | ldpc | enum | string | fixed | none | template => exact .refl _

theorem buildField_covers (document : Document) (nested : ∀ key, Covers (narrow key) (wide key))
    (row : RowRef) (siblings : List Field) (cell : TypeCell) (id : String) (marker : Marker)
    (bitsBefore : Nat) :
    Covers (buildField document narrow row siblings cell id marker bitsBefore)
      (buildField document wide row siblings cell id marker bitsBefore) := by
  simp only [buildField, failAt_bind]
  apply covers_ite (.refl _)
  apply Covers.after
  intro repetition
  exact (shapeField_covers document nested _ _ _ _).bind fun _ => .refl _

theorem buildRows_covers (document : Document) (nested : ∀ key, Covers (narrow key) (wide key))
    (key : String) (name : Option String) (index : Nat) (rows : List FieldRow) (draft : Draft) :
    Covers (buildRows document narrow key name index rows draft)
      (buildRows document wide key name index rows draft) := by
  induction rows generalizing index draft with
  | nil => exact .refl _
  | cons raw rest ih =>
    unfold buildRows
    apply Covers.after
    intro marker
    apply Covers.after
    intro label
    split
    · exact .refl _
    · apply Covers.after
      intro cell
      apply Covers.after
      intro id
      apply (buildField_covers document nested _ _ _ _ _ _).bind
      intro field
      exact .after fun extended => ih (index + 1) _

end Nested

section Tables

variable {window wider : Nat}

theorem checkWindow_covers (le : window ≤ wider) (key : String) (fields : List Field) :
    Covers (checkWindow key 0 (BitWindow.empty window) fields)
      (checkWindow key 0 (BitWindow.empty wider) fields) := by
  intro before u after run
  obtain ⟨same, chunks, plans⟩ := checkWindow_iff.mp run
  exact checkWindow_iff.mpr ⟨same, chunks, plans.resize le⟩

theorem finishStruct_covers (le : window ≤ wider) (key : String) (name : Option String)
    (role : Role) (draft : Draft) :
    Covers (finishStruct window key name role draft) (finishStruct wider key name role draft) := by
  simp only [finishStruct, fail_bind]
  apply covers_ite (.refl _)
  apply covers_ite (.refl _)
  exact (checkWindow_covers le key draft.fields).bind fun _ => .refl _

theorem whileInProgress_covers {narrow wide : Build α} (key : String)
    (covers : Covers narrow wide) :
    Covers (whileInProgress key narrow) (whileInProgress key wide) := by
  intro before a after run
  obtain ⟨middle, stepped, same⟩ := yields_whileInProgress.mp run
  exact yields_whileInProgress.mpr ⟨middle, covers stepped, same⟩

/-- By induction on the depth, as the tables nested in a table are built in the same two windows. -/
theorem buildTable_covers (document : Document) (le : window ≤ wider) (depth : Nat) (key : String)
    (name : Option String) (role : Role) :
    Covers (buildTable document window depth key name role)
      (buildTable document wider depth key name role) := by
  induction depth generalizing key name role with
  | zero => exact .refl _
  | succ depth ih =>
    simp only [buildTable, fail_bind]
    apply Covers.after
    intro context
    split
    · exact .refl _
    · apply Covers.after
      intro _
      apply covers_ite (.refl _)
      refine (whileInProgress_covers key ?_).bind fun _ => .refl _
      refine (buildRows_covers document ?_ key name 0 _ {}).bind fun rows => ?_
      · exact fun other => (ih other (some other) .nested).bind fun _ => .refl _
      · cases rows with
        | templated => exact .refl _
        | fields draft => exact finishStruct_covers le key name role draft

end Tables

end Builder

open Builder

variable {window wider : Nat}

theorem buildTemplate_covers (document : Document) (le : window ≤ wider) (template : TemplateRow) :
    Covers (buildTemplate document window template) (buildTemplate document wider template) := by
  apply Covers.after
  intro anchor
  exact ((buildTable_covers document le _ _ _ _).bind fun _ => .refl _).bind fun _ => .refl _

theorem buildCodes_covers (document : Document) (le : window ≤ wider) (count code : Nat) :
    Covers (buildCodes document window count code) (buildCodes document wider count code) := by
  induction count generalizing code with
  | zero => exact .refl _
  | succ count ih =>
    apply (buildTable_covers document le _ _ _ _).bind
    intro built
    cases built with
    | empty => exact .refl _
    | struct | templated => exact ih (code + 1)

theorem buildRange_covers (document : Document) (le : window ≤ wider) (range : RangeRow) :
    Covers (buildRange document window range) (buildRange document wider range) := by
  apply Covers.after
  intro codes
  simp only [fail_bind]
  exact covers_ite (.refl _) (buildCodes_covers document le _ _)

theorem buildAll_covers (document : Document) (le : window ≤ wider) :
    Covers (buildAll document window) (buildAll document wider) :=
  (covers_forM (buildTemplate_covers document le)).bind fun _ =>
    covers_forM (buildRange_covers document le)

/-- A document is accepted in every window wider than one that it is accepted in, as the same
model. -/
theorem analyze_of_le {document : Document} {source : String} {model : Model} (le : window ≤ wider)
    (accepted : analyze document window source = .ok model) :
    analyze document wider source = .ok model := by
  obtain ⟨context, run, rfl, codes, types⟩ := analyze_eq_ok accepted
  have run : (buildAll document wider).run (Context.new source) = (.ok (), context) :=
    buildAll_covers document le run
  simp [analyze, run, codes, types]

end PacketSpec
