import PacketSpec.Codegen.Unit
import PacketSpec.Proofs.Builder.Widening
import PacketSpec.Proofs.Codegen.Segments

/-! The generators have windows of their own. In a wider one they close the same chunks, so they
give the same code, or stop with the same fault. -/
namespace PacketSpec.Codegen

open Codec (layout layoutFrom_plans)

variable {σ δ : Type}

/-- Whatever is remembered of packed fields, the window of a structure closes its chunks. -/
theorem plans_of_layout {s : Struct} {window : Nat} {segments : List Codec.Segment}
    (laid : layout window s = .ok segments) (label : Field → σ) :
    ∃ chunks, Plans (fun _ => label) 0 (BitWindow.empty window) s.fields chunks := by
  obtain ⟨chunks, plans, -⟩ := @layoutFrom_plans σ s 0 (BitWindow.empty window) s.fields
    segments (fun _ => label) laid
  exact ⟨_, plans.map Prod.snd⟩

/-- A step of a generator keeps its way when the window in its draft is resized, and leaves the
window `next` behind. -/
structure Resizes (step : δ → Field → Except Fault δ) (view : δ → BitWindow σ) (resize : δ → δ)
    (draft : δ) (field : Field) (next : BitWindow σ) : Prop where
  same : step (resize draft) field = resize <$> step draft field
  leaves : ∀ after, step draft field = .ok after → view after = next

/-- What each step of a generator does in a resized window, all of them do. -/
theorem foldlM_resize {step : δ → Field → Except Fault δ} {view : δ → BitWindow σ} {resize : δ → δ}
    {label : Field → σ} {capacity index : Nat} {fields : List Field} {chunks : List (Chunk σ)}
    (packed : ∀ draft field closed next, field.isPacked = true → (view draft).capacity ≤ capacity →
      (view draft).push (label field) field.width = .ok (.ok closed, next) →
      Resizes step view resize draft field next)
    (aligned : ∀ draft field, field.isPacked = false →
      Resizes step view resize draft field (view draft))
    {draft : δ} (plans : Plans (fun _ => label) index (view draft) fields chunks)
    (wider : (view draft).capacity ≤ capacity) :
    fields.foldlM step (resize draft) = resize <$> fields.foldlM step draft := by
  have onward {field : Field} {rest : List Field} {draft : δ} {next : BitWindow σ}
      (resizes : Resizes step view resize draft field next)
      (ih : ∀ after, view after = next →
        rest.foldlM step (resize after) = resize <$> rest.foldlM step after) :
      (field :: rest).foldlM step (resize draft) =
        resize <$> (field :: rest).foldlM step draft := by
    rw [List.foldlM_cons, List.foldlM_cons, resizes.same]
    cases result : step draft field with
    | error fault => rfl
    | ok after => exact ih after (resizes.leaves after result)
  generalize shown : view draft = window at plans wider
  induction plans generalizing draft with
  | done => rfl
  | packed narrow pushed rest ih =>
    subst shown
    have kept := (BitWindow.push_resize wider pushed).2
    exact onward (packed draft _ _ _ narrow wider pushed) fun after same => ih same kept
  | aligned wide empty rest ih =>
    subst shown
    exact onward (aligned draft _ wide) fun after same => ih same wider

def EncoderDraft.resize (capacity : Nat) (draft : EncoderDraft) : EncoderDraft :=
  { draft with window := draft.window.resize capacity }

theorem encodeChunk_resize (capacity : Nat) (draft : EncoderDraft) (chunk : Chunk Code) :
    encodeChunk (draft.resize capacity) chunk =
      EncoderDraft.resize capacity <$> encodeChunk draft chunk := by
  unfold encodeChunk
  cases integer chunk.width false with
  | error fault => rfl
  | ok chunkType =>
    simp only [bind, Except.bind]
    cases putInteger chunk.width false
        (joinWith '|' (chunk.fields.map (chunkTerm chunkType))) with
    | error fault => rfl
    | ok put => rfl

theorem encodeChunk_window {draft after : EncoderDraft} {chunk : Chunk Code}
    (written : encodeChunk draft chunk = .ok after) : after.window = draft.window := by
  simp only [encodeChunk, bind_eq_ok, pure_eq_ok] at written
  obtain ⟨_, -, _, -, rfl⟩ := written
  rfl

theorem placeShared_of_push {s : Struct} {draft : EncoderDraft} {field : Field}
    {closed : Option (Chunk Code)} {next : BitWindow Code}
    (pushed : draft.window.push (sharedValue field) field.width = .ok (.ok closed, next)) :
    placeShared s field draft =
      closed.elim (.ok { draft with window := next }) (encodeChunk { draft with window := next }) := by
  rw [placeShared, pushed]
  cases closed <;> rfl

theorem encodeField_packed_resizes {s : Struct} {capacity : Nat} {draft : EncoderDraft}
    {field : Field} {closed : Option (Chunk Code)} {next : BitWindow Code}
    (packed : field.isPacked = true) (wider : draft.window.capacity ≤ capacity)
    (pushed : draft.window.push (sharedValue field) field.width = .ok (.ok closed, next)) :
    Resizes (encodeField s) EncoderDraft.window (EncoderDraft.resize capacity) draft field next := by
  cases named : ident field.id with
  | error fault =>
    have stops (other : EncoderDraft) : encodeField s other field = .error fault := by
      rw [encodeField, if_pos packed, encodePacked, named]
      rfl
    refine ⟨by rw [stops, stops]; rfl, fun after done => ?_⟩
    rw [stops] at done
    cases done
  | ok id =>
    have places (other : EncoderDraft) := @encodeField_packed s other field packed
      (named_of_ident named)
    have narrow : placeShared s field (draft.emit (sharedCheck s field)) = _ :=
      placeShared_of_push pushed
    have wide : placeShared s field ((draft.resize capacity).emit (sharedCheck s field)) = _ :=
      placeShared_of_push (BitWindow.push_resize wider pushed).1
    refine ⟨?_, fun after done => ?_⟩
    · rw [places, places, narrow, wide]
      cases closed with
      | none => rfl
      | some chunk =>
        exact encodeChunk_resize capacity
          { draft.emit (sharedCheck s field) with window := next } chunk
    · rw [places, narrow] at done
      cases closed with
      | none =>
        cases done
        rfl
      | some chunk => exact encodeChunk_window done

theorem encodeSize_resize (capacity : Nat) (s : Struct) (draft : EncoderDraft) (field : Field)
    (held : Code) :
    encodeSize s (draft.resize capacity) field held =
      EncoderDraft.resize capacity <$> encodeSize s draft field held := by
  unfold encodeSize
  by_cases payload : (field.shape == .payload) = true
  · rw [if_pos payload, if_pos payload]
    rfl
  rw [if_neg payload, if_neg payload]
  by_cases nested : field.shape.isStruct = true
  · rw [if_pos nested, if_pos nested]
    rfl
  rw [if_neg nested, if_neg nested]
  cases field.wireBits? with
  | error fault => rfl
  | ok bits =>
    cases bits with
    | some bits => rfl
    | none =>
      cases field.repetition with
      | none | constant => rfl
      | fieldRef index =>
        simp only [bind, Except.bind]
        by_cases stored : field.isStored = true
        · rw [if_pos stored, if_pos stored]
          rfl
        · rw [if_neg stored, if_neg stored]
          cases encoderCount s index <;> rfl

theorem encodeField_aligned_resizes (capacity : Nat) (s : Struct) (draft : EncoderDraft)
    {field : Field} (wide : field.isPacked = false) :
    Resizes (encodeField s) EncoderDraft.window (EncoderDraft.resize capacity) draft field
      draft.window := by
  have apart : ¬ field.isPacked = true := by simp [wide]
  refine ⟨?_, fun after done => ?_⟩
  · rw [encodeField, encodeField, if_neg apart, if_neg apart]
    cases ident field.id with
    | error fault => rfl
    | ok id =>
      simp only [bind, Except.bind, encodeSize_resize]
      cases encodeSize s draft field (code "self." ++ id) with
      | error fault => rfl
      | ok sized =>
        cases countCheck s field (code "self." ++ id) with
        | error fault => rfl
        | ok check => cases encodeStatements s field (code "self." ++ id) <;> rfl
  · simp only [encodeField, if_neg apart, bind_eq_ok, pure_eq_ok] at done
    obtain ⟨_, -, middle, sized, _, -, _, -, rfl⟩ := done
    show middle.window = draft.window
    exact encodeSize_window sized

theorem encodeImpl_widen {s : Struct} {window wider : Nat} {segments : List Codec.Segment}
    (le : window ≤ wider) (laid : layout window s = .ok segments) :
    encodeImpl wider s = encodeImpl window s := by
  obtain ⟨chunks, plans⟩ := plans_of_layout laid sharedValue
  have same := @foldlM_resize _ _ (encodeField s) EncoderDraft.window (EncoderDraft.resize wider)
    sharedValue wider 0 s.fields chunks
    (fun _ _ _ _ packed room pushed => encodeField_packed_resizes packed room pushed)
    (fun draft _ wide => encodeField_aligned_resizes wider s draft wide)
    { window := BitWindow.empty window } plans le
  unfold encodeImpl
  rw [show ({ window := BitWindow.empty wider } : EncoderDraft) =
    EncoderDraft.resize wider { window := BitWindow.empty window } from rfl, same]
  cases s.fields.foldlM (encodeField s) { window := BitWindow.empty window } <;> rfl

def DecoderDraft.resize (capacity : Nat) (draft : DecoderDraft) : DecoderDraft :=
  { draft with window := draft.window.resize capacity }

theorem decodeField_packed {s : Struct} {draft : DecoderDraft} {field : Field}
    {closed : Option (Chunk Field)} {next : BitWindow Field} (packed : field.isPacked = true)
    (pushed : draft.window.push field field.width = .ok (.ok closed, next)) :
    decodeField s draft field =
      closed.elim (.ok { draft with window := next }) fun chunk => do
        return { draft with window := next }.emit (← decodeChunk s chunk) := by
  rw [decodeField, if_pos packed, pushed]
  cases closed <;> rfl

theorem decodeField_packed_resizes {s : Struct} {capacity : Nat} {draft : DecoderDraft}
    {field : Field} {closed : Option (Chunk Field)} {next : BitWindow Field}
    (packed : field.isPacked = true) (wider : draft.window.capacity ≤ capacity)
    (pushed : draft.window.push field field.width = .ok (.ok closed, next)) :
    Resizes (decodeField s) DecoderDraft.window (DecoderDraft.resize capacity) draft field next := by
  have narrow := @decodeField_packed s draft field closed next packed pushed
  have wide := @decodeField_packed s (draft.resize capacity) field closed (next.resize capacity)
    packed (BitWindow.push_resize wider pushed).1
  refine ⟨?_, fun after done => ?_⟩
  · rw [narrow, wide]
    cases closed with
    | none => rfl
    | some chunk =>
      simp only [Option.elim_some]
      cases decodeChunk s chunk <;> rfl
  · rw [narrow] at done
    cases closed with
    | none =>
      cases done
      rfl
    | some chunk =>
      simp only [Option.elim_some, bind_eq_ok, pure_eq_ok] at done
      obtain ⟨_, -, rfl⟩ := done
      rfl

theorem decodeField_aligned_resizes (capacity : Nat) (s : Struct) (draft : DecoderDraft)
    {field : Field} (wide : field.isPacked = false) :
    Resizes (decodeField s) DecoderDraft.window (DecoderDraft.resize capacity) draft field
      draft.window := by
  have apart : ¬ field.isPacked = true := by simp [wide]
  refine ⟨?_, fun after done => ?_⟩
  · rw [decodeField, decodeField, if_neg apart, if_neg apart]
    cases ident field.id with
    | error fault => rfl
    | ok id =>
      simp only [bind, Except.bind]
      cases decodeStatements s field id <;> rfl
  · simp only [decodeField, if_neg apart, bind_eq_ok, pure_eq_ok] at done
    obtain ⟨_, -, _, -, rfl⟩ := done
    rfl

theorem decodeImpl_widen {model : Model} {s : Struct} {window wider : Nat}
    {segments : List Codec.Segment} (le : window ≤ wider)
    (laid : layout window s = .ok segments) :
    decodeImpl model wider s = decodeImpl model window s := by
  obtain ⟨chunks, plans⟩ := plans_of_layout laid id
  have same := @foldlM_resize _ _ (decodeField s) DecoderDraft.window (DecoderDraft.resize wider)
    id wider 0 s.fields chunks
    (fun _ _ _ _ packed room pushed => decodeField_packed_resizes packed room pushed)
    (fun draft _ wide => decodeField_aligned_resizes wider s draft wide)
    { window := BitWindow.empty window } plans le
  unfold decodeImpl
  rw [show ({ window := BitWindow.empty wider } : DecoderDraft) =
    DecoderDraft.resize wider { window := BitWindow.empty window } from rfl, same]
  cases s.fields.foldlM (decodeField s) { window := BitWindow.empty window } <;> rfl

theorem mapM_congr {α β : Type} {items : List α} {one other : α → Except Fault β}
    (same : ∀ item ∈ items, one item = other item) : items.mapM one = items.mapM other := by
  induction items with
  | nil => rfl
  | cons item rest ih =>
    rw [List.mapM_cons, List.mapM_cons, same item (.head _),
      ih fun next member => same next (.tail _ member)]

/-- Structures that have a layout give the same code in a wider window. -/
theorem generate_widen {model : Model} {window wider : Nat} (le : window ≤ wider)
    (laid : ∀ s ∈ model.structs, ∃ segments, layout window s = .ok segments) (unit : CodeUnit) :
    generate model unit wider = generate model unit window := by
  have items : items model unit wider = items model unit window := by
    cases unit with
    | enums | data => rfl
    | encoder =>
      refine congrArg (List.flatten <$> ·) (mapM_congr fun s member => ?_)
      obtain ⟨segments, laid⟩ := laid s member
      exact encodeImpl_widen le laid
    | decoder =>
      refine congrArg (List.flatten <$> ·) (mapM_congr fun s member => ?_)
      obtain ⟨segments, laid⟩ := laid s member
      exact decodeImpl_widen le laid
  rw [generate, generate, items]

end PacketSpec.Codegen
