import PacketSpec.Proofs.Builder.Origin
import PacketSpec.Proofs.Codec.Encoding
import PacketSpec.Proofs.Codegen.Scopes
import PacketSpec.Proofs.Codegen.Segments

/-! The variables that a generated decoder binds: one for each stored field and one for the payload.
Whether a field has one is decided by its shape and its fixed value, in other cases than those that
decide what is stored. -/
namespace PacketSpec

/-- Shapes that cannot be fixed, of fields that have a value. -/
def Shape.isHeld : Shape → Bool
  | .rational | .bytes | .string _ | .struct _ | .enum _ => true
  | _ => false

theorem Field.WellFormed.stored_of_isHeld {field : Field} (formed : field.WellFormed)
    (held : field.shape.isHeld = true) : field.isStored = true := by
  have free : field.fixed = none := by
    refine Option.eq_none_iff_forall_not_mem.mpr fun value fixed => ?_
    have fixes := (formed.fixed value fixed).2
    cases shape : field.shape <;> simp_all [Shape.isHeld]
  cases shape : field.shape <;> simp_all [Shape.isHeld, Field.isStored, Shape.isParity]

namespace Codegen

open Codec (Segment layout layout_fields layout_planned fields_chunkOf)

def boundFor (field : Field) : List String :=
  if field.isStored || field.shape == .payload then [escaped field.id] else []

theorem boundFor_of_stored {field : Field} (stored : field.isStored = true) :
    boundFor field = [escaped field.id] := by
  simp [boundFor, stored]

theorem boundFor_of_fixed {field : Field} {value : Nat} (fixed : field.fixed = some value)
    (header : field.shape ≠ .payload) : boundFor field = [] := by
  simp [boundFor, Field.isStored, fixed, header]

/-- The variable of a field is none of the generator. -/
def Apart (field : Field) : Prop := isOwn (escaped field.id) = false

theorem inert_decoderCount {s : Struct} {index : Nat} {count : Code}
    (known : decoderCount s index = .ok count) : Inert count := by
  unfold decoderCount at known
  split at known
  · cases known
  · split at known
    · obtain rfl := pure_eq_ok.mp known
      exact inert_number _
    · simp only [bind_eq_ok, pure_eq_ok] at known
      obtain ⟨word, named, rfl⟩ := known
      exact (inert_ident named).append (by decide)

theorem binds_fixedCheck {s : Struct} {field : Field} {value : Code} {expected : Nat}
    (inert : Inert value) : Binds (fixedCheck s field value expected) [] := by
  have opening : code "let __value =" = [.word "let", .word "__value", .mark '='] := rfl
  have error : Inert (code "packet:" ++ [.quoted s.id] ++ code ", field:" ++ [.quoted field.id] ++
      code ", expected:" ++ hexNumber expected ++ code ", actual: __value,") :=
    (((inert_origin s.id field.id).append (by decide)).append (inert_hexNumber expected)).append
      (by decide)
  have refuses : Binds (code "return Err" ++ parens (
      code "DecodeError::InvalidFixedValue" ++ braces (
        code "packet:" ++ [.quoted s.id] ++ code ", field:" ++ [.quoted field.id] ++
        code ", expected:" ++ hexNumber expected ++ code ", actual: __value,")) ++
      code ";") [] := by
    apply Binds.append_inert _ (by decide)
    apply Inert.append_binds (by decide)
    apply Binds.parens
    exact Inert.append_binds (by decide) (binds_inert error).braces
  rw [fixedCheck, opening]
  have bound := (binds_let (by decide : "__value" ≠ "let")
    (by decide : Inert [.mark '='])).append_inert inert
  have condition := (bound.append_inert (by decide : Inert (code "; if __value !="))).append_inert
    (inert_hexNumber expected)
  exact (condition.append refuses.braces).braces

theorem binds_field {field : Field} {value : Code} (apart : Apart field) (binds : Binds value []) :
    Binds (binding [.word (escaped field.id)] value) [escaped field.id] := by
  have bound := binds_binding (escaped_ne (by decide) : escaped field.id ≠ "let") binds
  rwa [visible, apart] at bound

theorem binds_decodePacked {s : Struct} {packed : Packed Field} {text : Code}
    (formed : packed.symbol.WellFormed) (narrow : packed.symbol.isPacked = true)
    (apart : Apart packed.symbol) (known : decodePacked s packed = .ok text) :
    Binds text (boundFor packed.symbol) := by
  have header : packed.symbol.shape ≠ .payload := by
    rcases (formed.packed narrow).2.2 with shape | ⟨typeId, shape⟩ <;> simp [shape]
  have value : Inert (if packed.shift == 0 then parens (code "__chunk &" ++ mask packed.width)
      else parens (parens (code "__chunk >>" ++ number packed.shift) ++ code "&" ++
        mask packed.width)) := by
    split
    · exact ((by decide : Inert (code "__chunk &")).append (inert_mask _)).parens
    · have shifted : Inert (code "__chunk >>" ++ number packed.shift) :=
        (by decide : Inert (code "__chunk >>")).append (inert_number _)
      exact ((shifted.parens.append (by decide)).append (inert_mask _)).parens
  simp only [decodePacked, bind_eq_ok] at known
  obtain ⟨id, named, known⟩ := known
  obtain rfl := ident_eq_ok named
  split at known
  · next fixed =>
    obtain rfl := pure_eq_ok.mp known
    rw [boundFor_of_fixed fixed header]
    exact binds_fixedCheck (value.append (by decide))
  · next free _ =>
    simp only [bind_eq_ok, pure_eq_ok] at known
    obtain ⟨type, typed, rfl⟩ := known
    rw [boundFor_of_stored (formed.stored_of_packed narrow free)]
    apply binds_field apart
    exact binds_inert (((inert_ident typed).append (by decide)).append
      (value.append (by decide)).parens)
  · next free _ =>
    obtain rfl := pure_eq_ok.mp known
    rw [boundFor_of_stored (formed.stored_of_packed narrow free)]
    apply binds_field apart
    apply binds_inert (value.append _)
    split <;> decide

theorem binds_decodeChunk {s : Struct} {chunk : Chunk Field} {text : Code}
    (formed : ∀ packed ∈ chunk.fields, packed.symbol.WellFormed)
    (narrow : ∀ packed ∈ chunk.fields, packed.symbol.isPacked = true)
    (apart : ∀ packed ∈ chunk.fields, Apart packed.symbol)
    (known : decodeChunk s chunk = .ok text) :
    Binds text (chunk.fields.flatMap fun packed => boundFor packed.symbol) := by
  simp only [decodeChunk, bind_eq_ok, pure_eq_ok] at known
  obtain ⟨get, reads, parts, run, rfl⟩ := known
  have word : Binds (binding (code "__chunk") get) [] :=
    binds_binding (by decide : "__chunk" ≠ "let") (binds_inert (inert_getInteger reads))
  exact word.append (binds_mapM (fun packed member part =>
    binds_decodePacked (formed packed member) (narrow packed member) (apart packed member)) run)

section

variable {s : Struct} {field : Field} {text : Code}

theorem inert_decodeElement (known : decodeElement field = .ok text) : Inert text := by
  unfold decodeElement at known
  split at known
  · exact inert_getInteger known
  · obtain rfl := pure_eq_ok.mp known
    decide
  · simp only [bind_eq_ok, pure_eq_ok] at known
    obtain ⟨type, typed, rfl⟩ := known
    exact (inert_ident typed).append (by decide)
  · simp only [bind_eq_ok, pure_eq_ok] at known
    obtain ⟨type, typed, get, reads, rfl⟩ := known
    exact ((inert_ident typed).append (by decide)).append
      ((inert_getInteger reads).append (by decide)).parens
  · cases known

theorem binds_decodeStruct {typeId : Code} (apart : Apart field) (typed : Inert typeId)
    (known : decodeStruct s field [.word (escaped field.id)] typeId = .ok text) :
    Binds text [escaped field.id] := by
  have element : Inert (typeId ++ code "::decode_from(__r)?") := typed.append (by decide)
  unfold decodeStruct at known
  split at known
  · obtain rfl := pure_eq_ok.mp known
    exact binds_field apart (binds_inert element)
  · next count _ =>
    obtain rfl := pure_eq_ok.mp known
    have id := inert_escaped field.id
    have opening : code "let mut" ++ [.word (escaped field.id)] =
        [.word "let", .word "mut", .word (escaped field.id)] := rfl
    have bound := binds_let_mut (escaped_ne (by decide) : escaped field.id ≠ "let")
    rw [visible, apart, if_neg (by decide)] at bound
    have type : Inert (brackets (typeId ++ code ";" ++ number count)) :=
      ((typed.append (by decide)).append (inert_number count)).brackets
    have start : Inert (parens (code "|_|" ++ typeId ++ code "::default()")) :=
      (((by decide : Inert (code "|_|")).append typed).append (by decide)).parens
    have body : Inert (code "*__elem =" ++ (typeId ++ code "::decode_from(__r)?") ++ code ";") :=
      ((by decide : Inert (code "*__elem =")).append element).append (by decide)
    rw [opening]
    exact (((((((bound.append_inert (by decide)).append_inert type).append_inert
      (by decide)).append_inert start).append_inert (by decide)).append_inert id).append_inert
      (by decide)).append (binds_inert body).braces
  · simp only [bind_eq_ok, pure_eq_ok] at known
    obtain ⟨count, counted, rfl⟩ := known
    have counts : Binds (binding (code "__count") count) [] :=
      binds_binding (by decide : "__count" ≠ "let") (binds_inert (inert_decoderCount counted))
    have opening : code "let mut __elems = Vec::with_capacity(__count.min(__r.remaining()));" =
        [.word "let", .word "mut", .word "__elems"] ++
          code "= Vec::with_capacity(__count.min(__r.remaining()));" := rfl
    have list : Binds (code "let mut __elems = Vec::with_capacity(__count.min(__r.remaining()));")
        [] := by
      rw [opening]
      exact (binds_let_mut (by decide)).append_inert (by decide)
    have stop : Binds (code "if __r.remaining() == 0" ++ braces (code "break;")) [] :=
      Inert.append_binds (by decide) (binds_inert (by decide)).braces
    have body := ((stop.append_inert (by decide : Inert (code "__elems.push"))).append_inert
      element.parens).append_inert (by decide : Inert (code ";"))
    apply binds_field apart
    exact ((((counts.append list).append_inert (by decide)).append body.braces).append_inert
      (by decide)).braces

theorem binds_decodeElements (apart : Apart field)
    (known : decodeElements s field [.word (escaped field.id)] = .ok text) :
    Binds text [escaped field.id] := by
  simp only [decodeElements, bind_eq_ok] at known
  obtain ⟨get, element, known⟩ := known
  have element := inert_decodeElement element
  have each : Inert (parens (code "|_|" ++ get)) :=
    ((by decide : Inert (code "|_|")).append element).parens
  split at known
  · obtain rfl := pure_eq_ok.mp known
    exact binds_field apart (binds_inert element)
  · next count _ =>
    split at known
    · obtain rfl := pure_eq_ok.mp known
      apply binds_field apart
      exact binds_inert (((by decide : Inert (code "__r.get_array::<")).append
        (inert_number count)).append (by decide))
    · obtain rfl := pure_eq_ok.mp known
      apply binds_field apart
      exact binds_inert ((by decide : Inert (code "std::array::from_fn")).append each)
  · simp only [bind_eq_ok] at known
    obtain ⟨count, counted, known⟩ := known
    have counted := inert_decoderCount counted
    split at known
    · obtain rfl := pure_eq_ok.mp known
      apply binds_field apart
      exact binds_inert ((by decide : Inert (code "__r.get_bytes")).append counted.parens)
    · obtain rfl := pure_eq_ok.mp known
      have opening : code "let __count: usize =" =
          [.word "let", .word "__count", .mark ':'] ++ code "usize =" := rfl
      have first : Binds (code "let __count: usize =" ++ count ++ code ";") [] := by
        rw [opening]
        exact (((binds_let (by decide) (by decide)).append_inert (by decide)).append_inert
          counted).append_inert (by decide)
      have bounded : Inert (code "__count.min(__r.remaining() /" ++ number (field.width / 8) ++
          code ")") :=
        ((by decide : Inert (code "__count.min(__r.remaining() /")).append
          (inert_number _)).append (by decide)
      have second := binds_binding (by decide : "__count" ≠ "let") (binds_inert bounded)
      apply binds_field apart
      exact ((((first.append second).append_inert (by decide)).append_inert each).append_inert
        (by decide)).braces

theorem binds_decodeDescriptor (shape : field.shape = .descriptor) (apart : Apart field)
    (known : decodeDescriptor s field [.word (escaped field.id)] = .ok text) :
    Binds text (boundFor field) := by
  unfold decodeDescriptor at known
  split at known
  · next fixed =>
    rw [boundFor_of_fixed fixed (by simp [shape])]
    split at known
    · obtain rfl := pure_eq_ok.mp known
      exact binds_fixedCheck (by decide)
    · simp only [bind_eq_ok, pure_eq_ok] at known
      obtain ⟨get, reads, rfl⟩ := known
      exact binds_fixedCheck ((inert_getInteger reads).append (by decide))
  · next free =>
    rw [boundFor_of_stored (by simp [Field.isStored, free, shape, Shape.isParity])]
    split at known
    · obtain rfl := pure_eq_ok.mp known
      exact binds_field apart (binds_inert (by decide))
    · split at known <;> obtain rfl := pure_eq_ok.mp known
      · exact binds_field apart (binds_inert (by decide))
      · exact binds_field apart (binds_inert (by decide))

theorem inert_skip {size : Code} (inert : Inert size) :
    Inert (code "__r.skip" ++ parens size ++ code ";") :=
  ((by decide : Inert (code "__r.skip")).append inert.parens).append (by decide)

theorem binds_decodeStatements (formed : field.WellFormed) (apart : Apart field)
    (known : decodeStatements s field [.word (escaped field.id)] = .ok text) :
    Binds text (boundFor field) := by
  have stored (held : field.shape.isHeld = true) : boundFor field = [escaped field.id] :=
    boundFor_of_stored (formed.stored_of_isHeld held)
  unfold decodeStatements at known
  split at known
  case h_1 shape =>
    split at known
    · next fixed =>
      simp only [bind_eq_ok, pure_eq_ok] at known
      obtain ⟨get, reads, rfl⟩ := known
      rw [boundFor_of_fixed fixed (by simp [shape])]
      exact binds_fixedCheck ((inert_getInteger reads).append (by decide))
    · next free =>
      rw [boundFor_of_stored (by simp [Field.isStored, free, shape, Shape.isParity])]
      split at known
      · simp only [bind_eq_ok, pure_eq_ok] at known
        obtain ⟨get, reads, rfl⟩ := known
        exact binds_field apart (binds_inert ((inert_getInteger reads).append (by decide)))
      · exact binds_decodeElements apart known
  case h_2 shape =>
    simp only [bind_eq_ok] at known
    obtain ⟨type, typed, known⟩ := known
    rw [stored (by rw [shape]; rfl)]
    exact binds_decodeStruct apart (inert_ident typed) known
  case h_3 shape =>
    rw [stored (by rw [shape]; rfl)]
    exact binds_decodeElements apart known
  case h_4 shape =>
    rw [stored (by rw [shape]; rfl)]
    exact binds_decodeElements apart known
  case h_5 shape =>
    obtain rfl := pure_eq_ok.mp known
    rw [stored (by rw [shape]; rfl)]
    apply binds_field apart
    exact binds_inert (((by decide : Inert (code "__r.get_array::<")).append
      (inert_number _)).append (by decide))
  case h_6 capacity shape =>
    obtain rfl := pure_eq_ok.mp known
    rw [stored (by rw [shape]; rfl)]
    apply binds_field apart
    exact binds_inert (((by decide : Inert (code "__r.get_fixed_str::<")).append
      (inert_number capacity)).append (by decide))
  case h_7 shape => exact binds_decodeDescriptor shape apart known
  case h_8 shape =>
    rw [show boundFor field = [] by simp [boundFor, Field.isStored, shape]]
    split at known
    · simp only [bind_eq_ok, pure_eq_ok] at known
      obtain ⟨count, counted, rfl⟩ := known
      exact binds_inert (inert_skip (inert_byteLength (inert_decoderCount counted) _))
    · simp only [bind_eq_ok, pure_eq_ok] at known
      obtain ⟨bits, -, rfl⟩ := known
      exact binds_inert (inert_skip (inert_number _))
  case h_9 ldpc shape =>
    obtain rfl := pure_eq_ok.mp known
    rw [show boundFor field = [] by simp [boundFor, Field.isStored, shape, Shape.isParity]]
    exact binds_inert (inert_skip (inert_number _))
  case h_10 shape =>
    have takes {size : Code} (inert : Inert size) : Binds
        (binding [.word (escaped field.id)] (code "__r.get_bytes" ++ parens size))
        (boundFor field) := by
      rw [show boundFor field = [escaped field.id] by simp [boundFor, shape]]
      apply binds_field apart
      exact binds_inert ((by decide : Inert (code "__r.get_bytes")).append inert.parens)
    split at known
    · obtain rfl := pure_eq_ok.mp known
      exact takes (by decide)
    · simp only [bind_eq_ok, pure_eq_ok] at known
      obtain ⟨bits, -, size, rfl, rfl⟩ := known
      exact takes (inert_number _)
    · simp only [bind_eq_ok, pure_eq_ok] at known
      obtain ⟨count, counted, size, rfl, rfl⟩ := known
      exact takes (inert_byteLength (inert_decoderCount counted) _)
  case h_11 => cases known

end

/-- A generator that gathers something for each item gathers it for all of them. -/
theorem foldlM_gathers {δ α β : Type} {whole : δ → α → Except Fault δ} {items : List α}
    (holds : δ → List β → Prop) (gather : α → List β)
    (step : ∀ item ∈ items, ∀ draft after gathered, holds draft gathered →
      whole draft item = .ok after → holds after (gathered ++ gather item))
    {draft after : δ} (start : holds draft []) (run : items.foldlM whole draft = .ok after) :
    holds after (items.flatMap gather) := by
  rw [← List.nil_append (List.flatMap gather _)]
  -- The induction is on the items that are left, for all that was gathered before them.
  generalize [] = gathered at start ⊢
  induction items generalizing draft gathered with
  | nil =>
    obtain rfl := pure_eq_ok.mp run
    simpa using start
  | cons item rest ih =>
    rw [List.foldlM_cons] at run
    obtain ⟨middle, first, others⟩ := bind_eq_ok.mp run
    have here := step item (.head _) draft middle gathered start first
    have later := ih (fun other listed => step other (.tail _ listed)) others _ here
    rwa [List.append_assoc, ← List.flatMap_cons] at later

theorem mem_fields_of_layout {window : Nat} {s : Struct} {segments : List Segment}
    {segment : Segment} (laid : layout window s = .ok segments) (listed : segment ∈ segments) :
    ∀ field ∈ segment.fields, field ∈ s.fields := by
  intro field member
  rw [← (layout_fields laid).1]
  exact List.mem_flatMap.mpr ⟨segment, listed, member⟩

/-- A generator that gathers names for the fields of each segment gathers those of all fields. -/
theorem foldlM_layout {δ : Type} {whole : δ → Segment → Except Fault δ} {window : Nat} {s : Struct}
    {segments : List Segment} (laid : layout window s = .ok segments)
    (holds : δ → List String → Prop) (names : Field → List String)
    (step : ∀ segment ∈ segments, (∀ field ∈ segment.fields, field ∈ s.fields) →
      ∀ draft after gathered, holds draft gathered → whole draft segment = .ok after →
        holds after (gathered ++ segment.fields.flatMap names))
    {draft after : δ} (start : holds draft []) (run : segments.foldlM whole draft = .ok after) :
    holds after (s.fields.flatMap names) := by
  rw [← (layout_fields laid).1, List.flatMap_assoc]
  exact foldlM_gathers holds _
    (fun segment listed => step segment listed (mem_fields_of_layout laid listed)) start run

theorem statements_decodeSegment {s : Struct} {capacity : Nat} {segment : Segment}
    {draft after : DecoderDraft} {names : List String} (planned : segment.Planned capacity)
    (formed : ∀ field ∈ segment.fields, field.WellFormed)
    (apart : ∀ field ∈ segment.fields, Apart field) (binds : Binds draft.statements names)
    (read : decodeSegment s draft segment = .ok after) :
    Binds after.statements (names ++ segment.fields.flatMap boundFor) := by
  cases segment with
  | chunk shared =>
    obtain ⟨fields, rfl, narrow, -⟩ := planned
    have symbol {packed : Packed Field}
        (member : packed ∈ (BitWindow.chunkOf (widthsOf fields)).fields) :
        packed.symbol ∈ (Segment.chunk (BitWindow.chunkOf (widthsOf fields))).fields :=
      List.mem_map_of_mem member
    simp only [decodeSegment, bind_eq_ok, pure_eq_ok] at read
    obtain ⟨text, known, rfl⟩ := read
    have packed := binds_decodeChunk (fun packed member => formed _ (symbol member))
      (fun packed member => narrow _ (fields_chunkOf fields ▸ symbol member))
      (fun packed member => apart _ (symbol member)) known
    rw [Segment.fields, List.flatMap_map]
    exact binds.append packed
  | aligned field =>
    obtain ⟨id, named, text, known, rfl⟩ := decodeSegment_aligned planned read
    obtain rfl := ident_eq_ok named
    rw [Segment.fields, List.flatMap_singleton]
    exact binds.append
      (binds_decodeStatements (formed field (.head _)) (apart field (.head _)) known)

/-- The fields of a decoder are bound one after the other. -/
theorem binds_decodeFields {s : Struct} {window : Nat} {segments : List Segment}
    {after : DecoderDraft} (laid : layout window s = .ok segments)
    (formed : ∀ field ∈ s.fields, field.WellFormed) (apart : ∀ field ∈ s.fields, Apart field)
    (read : s.fields.foldlM (decodeField s) { window := BitWindow.empty window } = .ok after) :
    Binds after.statements (s.fields.flatMap boundFor) := by
  rw [decodeFields_eq laid rfl] at read
  refine foldlM_layout laid (fun draft names => Binds draft.statements names) boundFor ?_
    binds_nil read
  intro segment listed inside draft after names binds read
  exact statements_decodeSegment (layout_planned laid segment listed)
    (fun field member => formed field (inside field member))
    (fun field member => apart field (inside field member)) binds read

/-- The payload is passed on under the name of a field. -/
theorem payload_decodeFields {s : Struct} {fields : List Field} {draft after : DecoderDraft}
    {holds : Code → Prop} (names : ∀ field ∈ fields, holds [.word (escaped field.id)])
    (start : ∀ id ∈ draft.payload, holds id)
    (read : fields.foldlM (decodeField s) draft = .ok after) : ∀ id ∈ after.payload, holds id := by
  induction fields generalizing draft with
  | nil =>
    obtain rfl := pure_eq_ok.mp read
    exact start
  | cons field rest ih =>
    rw [List.foldlM_cons] at read
    obtain ⟨middle, first, others⟩ := bind_eq_ok.mp read
    refine ih (fun other member => names other (.tail _ member)) ?_ others
    unfold decodeField at first
    split at first
    · obtain ⟨pushed, -, first⟩ := bind_eq_ok.mp first
      split at first
      · cases first
      · obtain rfl := pure_eq_ok.mp first
        exact start
      · obtain ⟨text, -, first⟩ := bind_eq_ok.mp first
        obtain rfl := pure_eq_ok.mp first
        exact start
    · simp only [bind_eq_ok, pure_eq_ok] at first
      obtain ⟨id, named, text, -, rfl⟩ := first
      intro word passed
      by_cases own : (field.shape == .payload) = true
      · obtain rfl : id = word := by simpa [DecoderDraft.emit, own] using passed
        obtain rfl := ident_eq_ok named
        exact names field (.head _)
      · exact start word (by simpa [DecoderDraft.emit, own] using passed)

def shorthand (s : Struct) : Code :=
  joinWith ',' ((s.storedFields.map fun field => escaped field.id).map fun name => [.word name])

theorem constructor_eq {s : Struct} {name text : Code} (known : constructor s name = .ok text) :
    text = name ++ braces (shorthand s) := by
  simp only [constructor, bind_eq_ok, pure_eq_ok] at known
  obtain ⟨parts, run, rfl⟩ := known
  rw [shorthand, eq_map_of_mapM (fun field word => ident_eq_ok) run, List.map_map]
  rfl

theorem inert_shorthand (s : Struct) : Inert (shorthand s) := by
  apply inert_joinWith
  intro part member
  rw [List.map_map] at member
  obtain ⟨field, -, rfl⟩ := List.mem_map.mp member
  exact inert_escaped field.id

/-- Code that ends a decoder: it binds nothing, and the constructor call is its last block. -/
structure Delivers (s : Struct) (text : Code) : Prop where
  binds : Binds text []
  last : ∃ before behind, text = before ++ braces (shorthand s) ++ behind ∧ .mark '\x7b' ∉ behind

theorem delivers_nested {s : Struct} {name : Code} (inert : Inert name) :
    Delivers s (code "Ok" ++ parens (name ++ braces (shorthand s))) where
  binds := by
    apply Inert.append_binds (by decide)
    apply Binds.parens
    exact Inert.append_binds inert (binds_inert (inert_shorthand s)).braces
  last := ⟨code "Ok" ++ .mark '(' :: name, [.mark ')'], by simp [parens], by decide⟩

theorem delivers_packet {s : Struct} {name payload : Code} (inert : Inert name)
    (plain : Inert payload) :
    Delivers s (code "Ok" ++ parens (code "Decoded" ++ braces (code "packet:" ++
      (name ++ braces (shorthand s)) ++ code ", payload:" ++ payload ++
      code ", len: __r.offset()"))) where
  binds := by
    apply Inert.append_binds (by decide)
    apply Binds.parens
    apply Inert.append_binds (by decide)
    have value := Inert.append_binds inert (binds_inert (inert_shorthand s)).braces
    have front := Inert.append_binds (by decide : Inert (code "packet:")) value
    exact ((front.append_inert (by decide)).append_inert plain).append_inert (by decide) |>.braces
  last := by
    refine ⟨code "Ok" ++ .mark '(' :: code "Decoded" ++ .mark '\x7b' :: code "packet:" ++ name,
      code ", payload:" ++ payload ++ code ", len: __r.offset()" ++ [.mark '\x7d', .mark ')'],
      by simp [parens, braces], ?_⟩
    have unopened : .mark '\x7b' ∉ payload := fun member => (plain.mark_ne member).1 rfl
    have others : .mark '\x7b' ∉ code ", payload:" ++ code ", len: __r.offset()" ++
        [.mark '\x7d', .mark ')'] := by
      decide
    simp only [List.mem_append, not_or] at others ⊢
    exact ⟨⟨⟨others.1.1, unopened⟩, others.1.2⟩, others.2⟩

/-- The one method of a decoder reads the fields and delivers the structure. -/
theorem decodeImpl_parts {model : Model} {window : Nat} {s : Struct} {reader : Code}
    (generated : decodeImpl model window s = .ok reader) :
    ∃ (draft : DecoderDraft) (front header opening result : Code),
      s.fields.foldlM (decodeField s) { window := BitWindow.empty window } = .ok draft ∧
      reader = front ++ braces (header ++ braces (opening ++ draft.statements ++ result)) ∧
      Inert front ∧ Inert header ∧ Binds opening [] ∧ Delivers s result := by
  simp only [decodeImpl, bind_eq_ok] at generated
  obtain ⟨draft, read, name, named, value, made, generated⟩ := generated
  obtain rfl := constructor_eq made
  have plain := inert_ident named
  split at generated
  · obtain rfl := pure_eq_ok.mp generated
    refine ⟨draft, code "impl DecodeFrom for" ++ name,
      code "fn decode_from(__r: &mut Reader<'_>) -> Result<Self, DecodeError>", [],
      code "Ok" ++ parens (name ++ braces (shorthand s)), read, ?_,
      (by decide : Inert (code "impl DecodeFrom for")).append plain, by decide, binds_nil,
      delivers_nested plain⟩
    simp
  · have opening : code "let mut __reader = Reader::new(buf); let __r = &mut __reader;" =
        [.word "let", .word "mut", .word "__reader"] ++ code "= Reader::new(buf);" ++
          ([.word "let", .word "__r", .mark '='] ++ code "&mut __reader;") := rfl
    have opens :
        Binds (code "let mut __reader = Reader::new(buf); let __r = &mut __reader;") [] := by
      rw [opening]
      have reader : Binds [.word "let", .word "mut", .word "__reader"] [] :=
        binds_let_mut (by decide)
      have shared : Binds [.word "let", .word "__r", .mark '='] [] :=
        binds_let (by decide) (by decide)
      exact (reader.append_inert (by decide)).append (shared.append_inert (by decide))
    have outer : Inert (code "impl Decode for" ++ name) :=
      (by decide : Inert (code "impl Decode for")).append plain
    have inner : Inert (code "fn decode(buf: &Bytes) -> Result<Decoded<Self>, DecodeError>") := by
      decide
    split at generated
    · next id passed =>
      obtain rfl := pure_eq_ok.mp generated
      have word := payload_decodeFields (fun field _ => inert_escaped field.id) (by simp) read id
        passed
      refine ⟨draft, _, _, _, _, read, ?_, outer, inner, opens,
        delivers_packet plain ((by decide : Inert (code "Some")).append word.parens)⟩
      simp only [List.append_assoc]
    · obtain rfl := pure_eq_ok.mp generated
      refine ⟨draft, _, _, _, _, read, ?_, outer, inner, opens,
        delivers_packet plain (by decide : Inert (code "None"))⟩
      simp only [List.append_assoc]

theorem localNames_decodeImpl {model : Model} {window : Nat} {s : Struct} {segments : List Segment}
    {reader : Code} (laid : layout window s = .ok segments)
    (formed : ∀ field ∈ s.fields, field.WellFormed) (apart : ∀ field ∈ s.fields, Apart field)
    (generated : decodeImpl model window s = .ok reader) :
    localNames reader = s.fields.flatMap boundFor := by
  obtain ⟨draft, front, header, opening, result, read, rfl, outer, inner, opens, delivers⟩ :=
    decodeImpl_parts generated
  apply localNames_method outer inner
  have body := (opens.append (binds_decodeFields laid formed apart read)).append delivers.binds
  rwa [List.append_nil] at body

/-- A decoder makes the structure of its stored fields. -/
theorem initialNames_decodeImpl {model : Model} {window : Nat} {s : Struct} {reader : Code}
    (generated : decodeImpl model window s = .ok reader) :
    initialNames reader = s.storedFields.map fun field => escaped field.id := by
  obtain ⟨draft, front, header, opening, result, -, rfl, -, -, -, delivers⟩ :=
    decodeImpl_parts generated
  obtain ⟨before, behind, rfl, unopened⟩ := delivers.last
  have around : front ++ braces (header ++ braces (opening ++ draft.statements ++
      (before ++ braces (shorthand s) ++ behind))) =
      (front ++ .mark '\x7b' :: header ++ .mark '\x7b' :: opening ++ draft.statements ++ before) ++
        braces (shorthand s) ++ (behind ++ [.mark '\x7d', .mark '\x7d']) := by
    simp [braces]
  rw [initialNames, around, lastScope_eq, shorthand, entryNames_joinWith]
  · rintro member
    rcases List.mem_append.mp member with own | other
    · exact ((inert_shorthand s).mark_ne own).1 rfl
    · exact unopened (by simpa using other)
  · exact fun member => ((inert_shorthand s).mark_ne member).2 rfl

theorem entryNames_entry {name : String} {value rest : Code} (whole : .mark ',' ∉ value) :
    entryNames true ([.word name] ++ code ":" ++ value ++ code "," ++ rest) =
      name :: entryNames true rest := by
  have spelled : [.word name] ++ code ":" ++ value ++ code "," ++ rest =
      .word name :: .mark ':' :: (value ++ .mark ',' :: rest) := by
    rw [show code ":" = [.mark ':'] from rfl, show code "," = [.mark ','] from rfl]
    simp
  rw [spelled, entryNames, entryNames]
  exact congrArg (name :: ·) (entryNames_skip whole)

theorem defaultValue_plain (field : Field) :
    Inert (defaultValue field) ∧ .mark ',' ∉ defaultValue field := by
  have each : ∀ isArray : Bool,
      Inert (if isArray then code "std::array::from_fn(|_| Default::default())"
        else code "Default::default()") ∧
      .mark ',' ∉ (if isArray then code "std::array::from_fn(|_| Default::default())"
        else code "Default::default()") := by
    decide
  exact each _

def defaults (s : Struct) : Code :=
  s.storedFields.flatMap fun field =>
    [.word (escaped field.id)] ++ code ":" ++ defaultValue field ++ code ","

theorem entryNames_defaults (s : Struct) :
    entryNames true (defaults s) = s.storedFields.map fun field => escaped field.id := by
  unfold defaults
  induction s.storedFields with
  | nil => rfl
  | cons field rest ih =>
    rw [List.flatMap_cons, List.map_cons, ← ih]
    exact entryNames_entry (defaultValue_plain field).2

theorem inert_defaults (s : Struct) : Inert (defaults s) := by
  unfold defaults
  induction s.storedFields with
  | nil => rfl
  | cons field rest ih =>
    have entry := (((inert_escaped field.id).append (by decide : Inert (code ":"))).append
      (defaultValue_plain field).1).append (by decide : Inert (code ","))
    exact entry.append ih

theorem initialNames_structDecl {s : Struct} {decl : Code} (generated : structDecl s = .ok decl) :
    initialNames decl = s.storedFields.map fun field => escaped field.id := by
  simp only [structDecl, bind_eq_ok] at generated
  obtain ⟨name, named, fields, listed, declared, run, generated⟩ := generated
  have entries : (fields.flatMap fun entry =>
      entry.1 ++ code ":" ++ defaultValue entry.2 ++ code ",") = defaults s := by
    rw [eq_map_of_idents listed, List.flatMap_map]
    rfl
  have ends {front : Code} : initialNames (front ++ code "impl Default for" ++ name ++ braces (
      code "fn default() -> Self" ++ braces (name ++ braces (defaults s)))) =
      s.storedFields.map fun field => escaped field.id := by
    have around : front ++ code "impl Default for" ++ name ++ braces (
        code "fn default() -> Self" ++ braces (name ++ braces (defaults s))) =
        (front ++ code "impl Default for" ++ name ++ .mark '\x7b' :: code "fn default() -> Self" ++
          .mark '\x7b' :: name) ++ braces (defaults s) ++ [.mark '\x7d', .mark '\x7d'] := by
      simp [braces]
    rw [initialNames, around, lastScope_eq, entryNames_defaults]
    · intro member
      rcases List.mem_append.mp member with own | other
      · exact ((inert_defaults s).mark_ne own).1 rfl
      · exact absurd other (by decide)
    · exact fun member => ((inert_defaults s).mark_ne member).2 rfl
  split at generated
  · simp only [bind_eq_ok, pure_eq_ok] at generated
    obtain ⟨constant, -, _, rfl, rfl⟩ := generated
    rw [entries]
    exact ends
  · simp only [bind_eq_ok, pure_eq_ok] at generated
    obtain ⟨_, rfl, rfl⟩ := generated
    rw [entries]
    exact ends

end Codegen

open Builder Codegen

theorem isOwn_iff {name : String} :
    isOwn name = true ↔ ∃ rest, name.toList = '_' :: '_' :: rest := by
  rw [isOwn, Text.startsWith, List.isPrefixOf_iff_prefix]
  constructor
  · rintro ⟨rest, whole⟩
    exact ⟨rest, whole.symm⟩
  · rintro ⟨rest, whole⟩
    exact ⟨rest, whole.symm⟩

/-- Escaping makes no name one of the generator's own. -/
theorem isOwn_escaped {name : String} (other : isOwn name = false) :
    isOwn (escaped name) = false := by
  unfold escaped
  split
  · rw [← Bool.not_eq_true, isOwn_iff]
    rintro ⟨rest, whole⟩
    simp at whole
  · split
    · next path =>
      have each : ∀ name ∈ pathKeywords, isOwn (name ++ "_") = false := by decide
      exact each name (by simpa using path)
    · exact other

theorem isOwn_freeId (siblings : List Field) {label : String} (snake : Text.IsSnake label) :
    isOwn (freeId siblings label) = false := by
  have first {rest : List Char} : label.toList ≠ '_' :: rest := fun starts =>
    absurd (snake.head starts) (by decide)
  rw [← Bool.not_eq_true, isOwn_iff]
  rintro ⟨rest, whole⟩
  rcases freeId_number siblings label with same | ⟨number, -, same⟩
  · exact first (same ▸ whole)
  · rw [same, numbered_toList] at whole
    cases chars : label.toList with
    | cons c others =>
      rw [chars, List.cons_append] at whole
      exact first (chars.trans (by rw [(List.cons.inj whole).1]))
    | nil =>
      -- Without a label there is one underscore, and digits behind it.
      rw [chars, List.nil_append] at whole
      have digit : '_' ∈ Nat.toDigits 10 number := by
        rw [(List.cons.inj whole).2]
        exact .head _
      exact absurd (Nat.isDigit_of_mem_toDigits (by decide) (by decide) digit) (by decide)

theorem apart_of_analyze {document : Document} {window : Nat} {source : String} {model : Model}
    (accepted : analyze document window source = .ok model) {s : Struct}
    (member : s ∈ model.structs) : ∀ field ∈ s.fields, Apart field := by
  intro field inside
  have reads := reads_of_analyze accepted member
  obtain ⟨index, bound, rfl⟩ := List.mem_iff_getElem.mp inside
  have place := List.getElem?_eq_getElem bound
  have row := List.getElem?_eq_getElem (reads.length ▸ bound)
  obtain ⟨-, named, -, -, run, -⟩ := reads.each index _ _ row place
  rw [Apart, (buildField_yields run).1]
  exact isOwn_escaped (isOwn_freeId _ (Text.isSnake_snakeCase _))

end PacketSpec
