import PacketSpec.Codegen.Decoder
import PacketSpec.Codegen.Encoder
import PacketSpec.Proofs.Codec.Planning

/-! The generators of encoders and decoders take a structure field by field, each with a window of
its own. What they give is what they would give for the segments of the structure's layout, one after
the other. -/
namespace PacketSpec.Codegen

open Codec (Segment layout layout_fields layout_planned fields_chunkOf)

def identOf (name : String) : Code := (ident name).toOption.getD []

def Named (name : String) : Prop := ident name = .ok (identOf name)

theorem named_of_ident {name : String} {id : Code} (known : ident name = .ok id) : Named name := by
  simp [Named, identOf, known, Except.toOption]

def sharedValue (field : Field) : Code :=
  match field.fixed with
  | some value => hexNumber value
  | none =>
    let held := code "self." ++ identOf field.id
    if field.shape.isEnum then code "u64::from" ++ parens held
    else if field.seq then parens (held ++ code "&" ++ mask field.width)
    else held

def sharedCheck (s : Struct) (field : Field) : Code :=
  if field.fixed.isNone && (field.shape.isEnum || !field.seq) then
    rangeCheck (sharedValue field) field.width s.id field.id
  else []

def encodeSegment (s : Struct) (draft : EncoderDraft) : Segment → Except Fault EncoderDraft
  | .chunk shared =>
    encodeChunk (draft.emit ((Segment.chunk shared).fields.flatMap (sharedCheck s)))
      (shared.map sharedValue)
  | .aligned field => encodeField s draft field

theorem EncoderDraft.emit_nil (draft : EncoderDraft) : draft.emit [] = draft := by
  simp [emit]

theorem EncoderDraft.emit_emit (draft : EncoderDraft) (first second : Code) :
    (draft.emit first).emit second = draft.emit (first ++ second) := by
  simp [emit]

/-- Pushes what a packed field puts into its chunk, and writes the chunk if that closes it. -/
def placeShared (s : Struct) (field : Field) (draft : EncoderDraft) :
    Except Fault EncoderDraft := do
  match ← draft.window.push (sharedValue field) field.width with
  | (.error _, _) => throw (.invalidLayout s.id)
  | (.ok none, window) => return { draft with window }
  | (.ok (some chunk), window) => encodeChunk { draft with window } chunk

theorem encodeField_packed {s : Struct} {draft : EncoderDraft} {field : Field}
    (packed : field.isPacked = true) (named : Named field.id) :
    encodeField s draft field = placeShared s field (draft.emit (sharedCheck s field)) := by
  rw [Named] at named
  rw [encodeField, if_pos packed, encodePacked, named, sharedCheck]
  by_cases checked : (field.fixed.isNone && (field.shape.isEnum || !field.seq)) = true
  · rw [if_pos checked]
    simp only [bind, Except.bind, if_pos checked]
    rfl
  · rw [if_neg checked, EncoderDraft.emit_nil]
    simp only [bind, Except.bind, if_neg checked]
    rfl

def sharedItems (fields : List Field) : List (Code × Nat) :=
  fields.map fun field => (sharedValue field, field.width)

theorem sharedItems_widths (fields : List Field) :
    (sharedItems fields).map Prod.snd = fields.map Field.width := by
  simp [sharedItems]

theorem chunkOf_sharedItems (fields : List Field) :
    BitWindow.chunkOf (sharedItems fields) =
      (BitWindow.chunkOf (widthsOf fields)).map sharedValue := by
  rw [← BitWindow.chunkOf_map, widthsOf, List.map_map]
  rfl

/-- The last fields of a chunk, the first ones of which are waiting in the window. -/
theorem encodeFields_shared {s : Struct} {capacity : Nat} {front back : List Field}
    {draft : EncoderDraft} (more : back ≠ []) (packed : ∀ field ∈ back, field.isPacked = true)
    (named : ∀ field ∈ back, Named field.id)
    (completes : BitWindow.Completes capacity ((front ++ back).map Field.width))
    (holds : draft.window = BitWindow.holding capacity (sharedItems front)) :
    back.foldlM (encodeField s) draft =
      encodeChunk { draft.emit (back.flatMap (sharedCheck s)) with
        window := BitWindow.empty capacity } (BitWindow.chunkOf (sharedItems (front ++ back))) := by
  induction back generalizing front draft with
  | nil => exact absurd rfl more
  | cons field rest ih =>
    have items (others : List Field) : sharedItems (front ++ field :: others) =
        sharedItems front ++ (sharedValue field, field.width) :: sharedItems others := by
      simp [sharedItems]
    rw [List.foldlM_cons, encodeField_packed (packed field (.head _)) (named field (.head _)),
      placeShared]
    rw [← sharedItems_widths] at completes
    cases rest with
    | nil =>
      have pushed := (items [] ▸ completes).push_last
      rw [show (draft.emit (sharedCheck s field)).window = _ from holds, pushed, items,
        List.flatMap_singleton]
      exact bind_pure _
    | cons next rest =>
      have pushed := (items (next :: rest) ▸ completes).push_open (by simp [sharedItems])
      rw [show (draft.emit (sharedCheck s field)).window = _ from holds, pushed, List.flatMap_cons]
      have others := @ih (front ++ [field]) { draft.emit (sharedCheck s field) with
          window := BitWindow.holding capacity (sharedItems (front ++ [field])) } (by simp)
        (fun other member => packed other (.tail _ member))
        (fun other member => named other (.tail _ member))
        (by rw [← sharedItems_widths, List.append_assoc, List.singleton_append]; exact completes)
        rfl
      rw [List.append_assoc, List.singleton_append] at others
      rw [← EncoderDraft.emit_emit]
      refine Eq.trans ?_ others
      rw [items []]
      rfl

theorem Completes.ne_nil {capacity : Nat} {fields : List Field}
    (completes : BitWindow.Completes capacity (fields.map Field.width)) : fields ≠ [] := by
  rintro rfl
  cases completes.closes

theorem encodeFields_segment {s : Struct} {capacity : Nat} {segment : Segment}
    {draft : EncoderDraft} (planned : segment.Planned capacity)
    (named : ∀ field ∈ segment.fields, Named field.id)
    (empty : draft.window = BitWindow.empty capacity) :
    segment.fields.foldlM (encodeField s) draft = encodeSegment s draft segment := by
  cases segment with
  | chunk shared =>
    obtain ⟨fields, rfl, packed, completes⟩ := planned
    rw [encodeSegment]
    rw [fields_chunkOf] at named ⊢
    rw [@encodeFields_shared s capacity [] fields draft (Completes.ne_nil completes) packed named
      completes empty, List.nil_append, chunkOf_sharedItems, ← empty]
    rfl
  | aligned field => exact bind_pure _

theorem encodeSize_window {s : Struct} {draft after : EncoderDraft} {field : Field} {held : Code}
    (sized : encodeSize s draft field held = .ok after) : after.window = draft.window := by
  unfold encodeSize at sized
  split at sized
  · cases sized
    rfl
  · split at sized
    · cases sized
      rfl
    · obtain ⟨bits, -, sized⟩ := bind_eq_ok.mp sized
      split at sized
      · cases sized
        rfl
      · split at sized
        · split at sized
          · cases sized
            rfl
          · obtain ⟨count, -, sized⟩ := bind_eq_ok.mp sized
            cases sized
            rfl
        · cases sized
          rfl

theorem encodeSegment_aligned {s : Struct} {capacity : Nat} {field : Field}
    {draft after : EncoderDraft} (planned : (Segment.aligned field).Planned capacity)
    (written : encodeSegment s draft (.aligned field) = .ok after) :
    ∃ id, ident field.id = .ok id ∧
      ∃ middle, encodeSize s draft field (code "self." ++ id) = .ok middle ∧
      ∃ check, countCheck s field (code "self." ++ id) = .ok check ∧
      ∃ text, encodeStatements s field (code "self." ++ id) = .ok text ∧
        middle.emit (check ++ text) = after := by
  have wide : ¬ field.isPacked = true := by
    rw [show field.isPacked = false from planned]
    decide
  simpa only [encodeSegment, encodeField, if_neg wide, bind_eq_ok, pure_eq_ok] using written

/-- Writing a segment leaves the window as it is. -/
theorem encodeSegment_window {s : Struct} {capacity : Nat} {segment : Segment}
    {draft after : EncoderDraft} (planned : segment.Planned capacity)
    (written : encodeSegment s draft segment = .ok after) : after.window = draft.window := by
  cases segment with
  | chunk shared =>
    simp only [encodeSegment, encodeChunk, bind_eq_ok, pure_eq_ok] at written
    obtain ⟨_, -, _, -, rfl⟩ := written
    rfl
  | aligned field =>
    obtain ⟨_, -, middle, sized, _, -, _, -, rfl⟩ := encodeSegment_aligned planned written
    show middle.window = draft.window
    exact encodeSize_window sized

/-- A generator that takes the fields of each segment as one takes those of all segments. -/
theorem foldlM_segments {δ : Type} {step : δ → Field → Except Fault δ}
    {whole : δ → Segment → Except Fault δ} {segments : List Segment} (ready : δ → Prop)
    (same : ∀ segment ∈ segments, ∀ draft, ready draft →
      segment.fields.foldlM step draft = whole draft segment)
    (keeps : ∀ segment ∈ segments, ∀ draft after, ready draft → whole draft segment = .ok after →
      ready after)
    {draft : δ} (start : ready draft) :
    (segments.flatMap Segment.fields).foldlM step draft = segments.foldlM whole draft := by
  induction segments generalizing draft with
  | nil => rfl
  | cons segment rest ih =>
    rw [List.flatMap_cons, List.foldlM_append, same segment (.head _) draft start,
      List.foldlM_cons]
    cases result : whole draft segment with
    | error fault => rfl
    | ok after =>
      exact ih (fun other member => same other (.tail _ member))
        (fun other member => keeps other (.tail _ member))
        (keeps segment (.head _) draft after start result)

theorem encodeFields_segments {s : Struct} {capacity : Nat} {segments : List Segment}
    {draft : EncoderDraft} (planned : ∀ segment ∈ segments, segment.Planned capacity)
    (named : ∀ field ∈ segments.flatMap Segment.fields, Named field.id)
    (empty : draft.window = BitWindow.empty capacity) :
    (segments.flatMap Segment.fields).foldlM (encodeField s) draft =
      segments.foldlM (encodeSegment s) draft := by
  refine foldlM_segments (fun draft => draft.window = BitWindow.empty capacity) ?_ ?_ empty
  · intro segment member draft empty
    refine encodeFields_segment (planned segment member) (fun field inside => named field ?_) empty
    exact List.mem_flatMap.mpr ⟨segment, member, inside⟩
  · intro segment member draft after empty written
    exact (encodeSegment_window (planned segment member) written).trans empty

/-- The encoder of a structure is made of its segments. -/
theorem encodeFields_eq {s : Struct} {window : Nat} {segments : List Segment}
    {draft : EncoderDraft} (laid : layout window s = .ok segments)
    (named : ∀ field ∈ s.fields, Named field.id) (empty : draft.window = BitWindow.empty window) :
    s.fields.foldlM (encodeField s) draft = segments.foldlM (encodeSegment s) draft := by
  rw [← (layout_fields laid).1] at named ⊢
  exact encodeFields_segments (layout_planned laid) named empty

def decodeSegment (s : Struct) (draft : DecoderDraft) : Segment → Except Fault DecoderDraft
  | .chunk shared => do return draft.emit (← decodeChunk s shared)
  | .aligned field => decodeField s draft field

theorem decodeFields_shared {s : Struct} {capacity : Nat} {front back : List Field}
    {draft : DecoderDraft} (more : back ≠ []) (packed : ∀ field ∈ back, field.isPacked = true)
    (completes : BitWindow.Completes capacity ((front ++ back).map Field.width))
    (holds : draft.window = BitWindow.holding capacity (widthsOf front)) :
    back.foldlM (decodeField s) draft =
      decodeSegment s { draft with window := BitWindow.empty capacity }
        (.chunk (BitWindow.chunkOf (widthsOf (front ++ back)))) := by
  induction back generalizing front draft with
  | nil => exact absurd rfl more
  | cons field rest ih =>
    have widths (fields : List Field) :
        (widthsOf fields).map Prod.snd = fields.map Field.width := by
      simp [widthsOf]
    have items (others : List Field) : widthsOf (front ++ field :: others) =
        widthsOf front ++ (field, field.width) :: widthsOf others := by
      simp [widthsOf]
    rw [List.foldlM_cons, decodeField, if_pos (packed field (.head _)), holds]
    rw [← widths] at completes
    cases rest with
    | nil =>
      have pushed := (items [] ▸ completes).push_last
      rw [pushed, items]
      exact bind_pure _
    | cons next rest =>
      have pushed := (items (next :: rest) ▸ completes).push_open (by simp [widthsOf])
      rw [pushed]
      have others := @ih (front ++ [field]) { draft with
          window := BitWindow.holding capacity (widthsOf (front ++ [field])) } (by simp)
        (fun other member => packed other (.tail _ member))
        (by rw [← widths, List.append_assoc, List.singleton_append]; exact completes) rfl
      rw [List.append_assoc, List.singleton_append] at others
      refine Eq.trans ?_ others
      rw [items []]
      rfl

theorem decodeFields_segment {s : Struct} {capacity : Nat} {segment : Segment}
    {draft : DecoderDraft} (planned : segment.Planned capacity)
    (empty : draft.window = BitWindow.empty capacity) :
    segment.fields.foldlM (decodeField s) draft = decodeSegment s draft segment := by
  cases segment with
  | chunk shared =>
    obtain ⟨fields, rfl, packed, completes⟩ := planned
    rw [fields_chunkOf,
      @decodeFields_shared s capacity [] fields draft (Completes.ne_nil completes) packed completes
        empty, ← empty]
    rfl
  | aligned field => exact bind_pure _

theorem decodeSegment_aligned {s : Struct} {capacity : Nat} {field : Field}
    {draft after : DecoderDraft} (planned : (Segment.aligned field).Planned capacity)
    (read : decodeSegment s draft (.aligned field) = .ok after) :
    ∃ id, ident field.id = .ok id ∧
      ∃ text, decodeStatements s field id = .ok text ∧
        DecoderDraft.emit { draft with
          payload := if field.shape == .payload then some id else draft.payload } text = after := by
  have wide : ¬ field.isPacked = true := by
    rw [show field.isPacked = false from planned]
    decide
  simpa only [decodeSegment, decodeField, if_neg wide, bind_eq_ok, pure_eq_ok] using read

theorem decodeSegment_window {s : Struct} {capacity : Nat} {segment : Segment}
    {draft after : DecoderDraft} (planned : segment.Planned capacity)
    (read : decodeSegment s draft segment = .ok after) : after.window = draft.window := by
  cases segment with
  | chunk shared =>
    simp only [decodeSegment, bind_eq_ok, pure_eq_ok] at read
    obtain ⟨_, -, rfl⟩ := read
    rfl
  | aligned field =>
    obtain ⟨_, -, _, -, rfl⟩ := decodeSegment_aligned planned read
    rfl

theorem decodeFields_segments {s : Struct} {capacity : Nat} {segments : List Segment}
    {draft : DecoderDraft} (planned : ∀ segment ∈ segments, segment.Planned capacity)
    (empty : draft.window = BitWindow.empty capacity) :
    (segments.flatMap Segment.fields).foldlM (decodeField s) draft =
      segments.foldlM (decodeSegment s) draft := by
  refine foldlM_segments (fun draft => draft.window = BitWindow.empty capacity) ?_ ?_ empty
  · intro segment member draft empty
    exact decodeFields_segment (planned segment member) empty
  · intro segment member draft after empty read
    exact (decodeSegment_window (planned segment member) read).trans empty

/-- The decoder of a structure is made of its segments. -/
theorem decodeFields_eq {s : Struct} {window : Nat} {segments : List Segment}
    {draft : DecoderDraft} (laid : layout window s = .ok segments)
    (empty : draft.window = BitWindow.empty window) :
    s.fields.foldlM (decodeField s) draft = segments.foldlM (decodeSegment s) draft := by
  rw [← (layout_fields laid).1]
  exact decodeFields_segments (layout_planned laid) empty

end PacketSpec.Codegen
