import PacketSpec.Proofs.Codec.RoundTrip
import PacketSpec.Proofs.Codegen.Calls
import PacketSpec.Proofs.Codegen.Variables

/-! The calls of a generated decoder: those by which the structure is read, in their order. -/
namespace PacketSpec

namespace Codegen

open Codec (Segment layout layout_fields layout_planned fields_chunkOf)

variable {s : Struct} {field : Field} {value text : Code} {uses : List Use}

theorem reader_isVariable : IsVariable "__r" := by decide

theorem uses_binding (id : String) (reads : Uses "__r" value uses) :
    Uses "__r" (binding [.word id] value) uses := by
  have behind := ((silent (by decide : isQuiet "__r" (code "=") = true)).append_uses
    reads).append_silent (silent (by decide : isQuiet "__r" (code ";") = true))
  have bound := (silent (by decide : isQuiet "__r" (code "let") = true)).append_uses
    (behind.named id fun _ => rfl)
  rw [binding]
  simpa only [List.append_assoc] using bound

theorem silent_apart (apart : Apart field) : Silent "__r" [.word (escaped field.id)] := by
  apply silent_word
  intro same
  rw [Apart, same] at apart
  exact absurd apart (by decide)

theorem silent_decoderCount {index : Nat} (known : decoderCount s index = .ok text) :
    Silent "__r" text := by
  unfold decoderCount at known
  split at known
  · cases known
  · split at known
    · obtain rfl := pure_eq_ok.mp known
      exact silent_number reader_isVariable _
    · simp only [bind_eq_ok, pure_eq_ok] at known
      obtain ⟨id, named, rfl⟩ := known
      obtain rfl := ident_eq_ok named
      exact (silent (by decide)).named _ fun _ => rfl

theorem uses_getInteger {width : Nat} {signed : Bool} (known : getInteger width signed = .ok text) :
    Uses "__r" text (Call.integer width signed).gets := by
  simp only [getInteger, bind_eq_ok, pure_eq_ok] at known
  obtain ⟨name, named, rfl⟩ := known
  rw [Call.gets, integerMethod, named]
  have listed := mem_integerNames named
  simp only [integerNames, List.mem_cons, List.not_mem_nil, or_false] at listed
  rcases listed with rfl | rfl | rfl | rfl | rfl | rfl | rfl | rfl <;> exact fun _ => rfl

/-- What is compared with the fixed value is the only thing read. -/
theorem uses_fixedCheck {expected : Nat} (reads : Uses "__r" value uses) :
    Uses "__r" (fixedCheck s field value expected) uses := by
  intro rest
  simp (disch := decide) only [fixedCheck, List.append_assoc, usesOf_quiet, usesOf_parens,
    usesOf_braces, usesOf_quoted, reads.read, (silent_hexNumber reader_isVariable expected).read]

/-- A number that is converted to a type. -/
theorem uses_converted (typeId : String) (number : Uses "__r" value uses) :
    Uses "__r" ([.word typeId] ++ code "::from" ++ parens value) uses := by
  have conversion : Silent "__r" ([.word typeId] ++ code "::from") :=
    Uses.named typeId (fun _ => rfl) (silent (by decide))
  exact conversion.append_uses number.parens

theorem silent_decodePacked {packed : Packed Field} (known : decodePacked s packed = .ok text) :
    Silent "__r" text := by
  have bits : Silent "__r" (if packed.shift == 0 then parens (code "__chunk &" ++ mask packed.width)
      else parens (parens (code "__chunk >>" ++ number packed.shift) ++ code "&" ++
        mask packed.width)) := by
    have mask := silent_mask reader_isVariable packed.width
    have shift := silent_number reader_isVariable packed.shift
    intro rest
    split <;> simp (disch := decide) only [List.append_assoc, usesOf_quiet, usesOf_parens,
      mask.read, shift.read, List.nil_append]
  simp only [decodePacked, bind_eq_ok] at known
  obtain ⟨id, named, known⟩ := known
  obtain rfl := ident_eq_ok named
  split at known
  · obtain rfl := pure_eq_ok.mp known
    exact uses_fixedCheck (bits.append (silent (by decide)))
  · simp only [bind_eq_ok, pure_eq_ok] at known
    obtain ⟨type, typed, rfl⟩ := known
    obtain rfl := ident_eq_ok typed
    exact uses_binding _ (uses_converted _ (bits.append_quiet (by decide)))
  · obtain rfl := pure_eq_ok.mp known
    refine uses_binding _ (bits.append ?_)
    split <;> exact silent (by decide)

theorem uses_decodeChunk {shared : Chunk Field} (known : decodeChunk s shared = .ok text) :
    Uses "__r" text (Call.integer shared.width false).gets := by
  simp only [decodeChunk, bind_eq_ok, pure_eq_ok] at known
  obtain ⟨get, reads, parts, run, rfl⟩ := known
  have fields : Silent "__r" parts.flatten := silent_mapM (fun _ _ => silent_decodePacked) run
  exact (uses_binding "__chunk" (uses_getInteger reads)).append_silent fields

theorem uses_nested (typeId : String) :
    Uses "__r" ([.word typeId] ++ code "::decode_from(__r)?") [.passedOn] :=
  Uses.named typeId (fun _ => rfl) fun _ => rfl

theorem uses_decodeElement (known : decodeElement field = .ok text) :
    Uses "__r" text field.elementCall.gets := by
  unfold decodeElement at known
  unfold Field.elementCall
  split at known
  · next shape =>
    rw [shape]
    exact uses_getInteger known
  · next shape =>
    obtain rfl := pure_eq_ok.mp known
    rw [shape]
    exact fun _ => rfl
  · next shape =>
    simp only [bind_eq_ok, pure_eq_ok] at known
    obtain ⟨type, typed, rfl⟩ := known
    obtain rfl := ident_eq_ok typed
    rw [shape]
    exact uses_nested _
  · next shape =>
    simp only [bind_eq_ok, pure_eq_ok] at known
    obtain ⟨type, typed, get, reads, rfl⟩ := known
    obtain rfl := ident_eq_ok typed
    rw [shape]
    exact uses_converted _ ((uses_getInteger reads).append_quiet (by decide))
  · cases known

theorem uses_decodeStruct {typeId : String} (apart : Apart field)
    (known : decodeStruct s field [.word (escaped field.id)] [.word typeId] = .ok text) :
    Uses "__r" text [.passedOn] := by
  have id := silent_apart apart
  have element := uses_nested typeId
  unfold decodeStruct at known
  split at known
  · obtain rfl := pure_eq_ok.mp known
    exact uses_binding _ element
  · next count _ =>
    obtain rfl := pure_eq_ok.mp known
    have type := ((Uses.named typeId (fun _ => rfl)
      (silent (by decide : isQuiet "__r" (code ";") = true))).append_silent
      (silent_number reader_isVariable count)).brackets
    have named := (silent (by decide : isQuiet "__r" (code "|_|") = true)).append_uses
      (Uses.named typeId (fun _ => rfl)
        (silent (by decide : isQuiet "__r" (code "::default()") = true)))
    rw [← List.append_assoc] at named
    have loop := ((silent (by decide : isQuiet "__r" (code "*__elem =") = true)).append_uses
      element).append_quiet (by decide : isQuiet "__r" (code ";") = true)
    exact (((((((((silent (by decide)).append id).append_quiet (by decide)).append_silent
      type).append_quiet (by decide)).append_silent named.parens).append_quiet
      (by decide)).append_silent id).append_quiet (by decide)).append loop.braces
  · simp only [bind_eq_ok, pure_eq_ok] at known
    obtain ⟨count, counted, rfl⟩ := known
    apply uses_binding
    have counts := uses_binding "__count" (silent_decoderCount counted)
    have list : Silent "__r"
        (code "let mut __elems = Vec::with_capacity(__count.min(__r.remaining()));") := fun _ => rfl
    have stop : Silent "__r" (code "if __r.remaining() == 0" ++ braces (code "break;")) :=
      fun _ => rfl
    have push := ((stop.append_quiet (by decide : isQuiet "__r" (code "__elems.push") =
      true)).append_uses element.parens).append_quiet (by decide : isQuiet "__r" (code ";") = true)
    exact ((((counts.append_silent list).append_quiet (by decide)).append push.braces).append_quiet
      (by decide)).braces

theorem uses_decodeElements
    (known : decodeElements s field [.word (escaped field.id)] = .ok text) :
    Uses "__r" text field.elementsAccess.call.gets := by
  simp only [decodeElements, bind_eq_ok] at known
  obtain ⟨get, element, known⟩ := known
  have element := uses_decodeElement element
  have each := ((silent (by decide : isQuiet "__r" (code "|_|") = true)).append_uses element).parens
  unfold Field.elementsAccess
  split at known
  · next single =>
    obtain rfl := pure_eq_ok.mp known
    rw [single]
    exact uses_binding _ element
  · next count several =>
    rw [several]
    split at known
    · next buffered =>
      obtain rfl := pure_eq_ok.mp known
      rw [buffered]
      have get : Uses "__r" (code "__r.get_array::<") [.method "get_array"] := fun _ => rfl
      exact uses_binding _ ((get.append_silent
        (silent_number reader_isVariable count)).append_quiet (by decide))
    · next plain =>
      obtain rfl := pure_eq_ok.mp known
      rw [show field.isByteBuffer = false by simpa using plain]
      exact uses_binding _ ((silent (by decide)).append_uses each)
  · next index several =>
    simp only [bind_eq_ok] at known
    obtain ⟨count, counted, known⟩ := known
    have counted := silent_decoderCount counted
    rw [several]
    split at known
    · next buffered =>
      obtain rfl := pure_eq_ok.mp known
      rw [buffered]
      have get : Uses "__r" (code "__r.get_bytes") [.method "get_bytes"] := fun _ => rfl
      exact uses_binding _ (get.append_silent counted.parens)
    · next plain =>
      obtain rfl := pure_eq_ok.mp known
      rw [show field.isByteBuffer = false by simpa using plain]
      have whole : Silent "__r" (code "__count.min(__r.remaining() /") := fun _ => rfl
      have bounded := uses_binding "__count" ((whole.append_silent
        (silent_number reader_isVariable (field.width / 8))).append_quiet
        (by decide : isQuiet "__r" (code ")") = true))
      have first := ((silent (by decide : isQuiet "__r" (code "let __count: usize =") =
        true)).append counted).append_quiet (by decide : isQuiet "__r" (code ";") = true)
      apply uses_binding
      exact ((((first.append_silent bounded).append_quiet (by decide)).append_uses
        each).append_quiet (by decide)).braces

theorem uses_decodeDescriptor (formed : field.WellFormed) (shape : field.shape = .descriptor)
    (known : decodeDescriptor s field [.word (escaped field.id)] = .ok text) :
    Uses "__r" text (Call.integer field.width false).gets := by
  unfold decodeDescriptor at known
  split at known
  · split at known
    · next narrow =>
      obtain rfl := pure_eq_ok.mp known
      rw [show field.width = 8 by simpa using narrow]
      exact uses_fixedCheck fun _ => rfl
    · simp only [bind_eq_ok, pure_eq_ok] at known
      obtain ⟨get, reads, rfl⟩ := known
      exact uses_fixedCheck ((uses_getInteger reads).append_quiet (by decide))
  · rcases formed.descriptor_width shape with width | width | width
    all_goals
      rw [width] at known ⊢
      obtain rfl := pure_eq_ok.mp known
      exact uses_binding _ fun _ => rfl

theorem uses_skip (size : Silent "__r" value) :
    Uses "__r" (code "__r.skip" ++ parens value ++ code ";") [.method "skip"] := by
  have skips : Uses "__r" (code "__r.skip") [.method "skip"] := fun _ => rfl
  exact (skips.append_silent size.parens).append_quiet (by decide)

/-- The statements for a field make its call. -/
theorem uses_decodeStatements (formed : field.WellFormed) (apart : Apart field)
    (known : decodeStatements s field [.word (escaped field.id)] = .ok text) :
    Uses "__r" text field.access.call.gets := by
  unfold decodeStatements at known
  unfold Field.access
  split at known
  case h_1 shape =>
    rw [shape]
    dsimp only
    split at known
    · next fixed =>
      simp only [bind_eq_ok, pure_eq_ok] at known
      obtain ⟨get, reads, rfl⟩ := known
      rw [fixed]
      exact uses_fixedCheck ((uses_getInteger reads).append_quiet (by decide))
    · next free =>
      rw [free, Option.isSome_none, Bool.false_or]
      split at known
      · next sequence =>
        simp only [bind_eq_ok, pure_eq_ok] at known
        obtain ⟨get, reads, rfl⟩ := known
        rw [if_pos sequence]
        exact uses_binding _ ((uses_getInteger reads).append_quiet (by decide))
      · next plain =>
        rw [if_neg plain]
        exact uses_decodeElements known
  case h_2 typeId shape =>
    simp only [bind_eq_ok] at known
    obtain ⟨type, typed, known⟩ := known
    obtain rfl := ident_eq_ok typed
    rw [shape]
    have call : field.elementsAccess.call = .nested typeId := by
      have other : field.isByteBuffer = false := by simp [Field.isByteBuffer, shape]
      unfold Field.elementsAccess
      rw [other]
      cases field.repetition <;> simp [Field.elementCall, shape]
    rw [call]
    exact uses_decodeStruct apart known
  case h_3 shape => rw [shape]; exact uses_decodeElements known
  case h_4 shape => rw [shape]; exact uses_decodeElements known
  case h_5 shape =>
    obtain rfl := pure_eq_ok.mp known
    rw [shape]
    have get : Uses "__r" (code "__r.get_array::<") [.method "get_array"] := fun _ => rfl
    exact uses_binding _ ((get.append_silent (silent_number reader_isVariable _)).append_quiet
      (by decide))
  case h_6 capacity shape =>
    obtain rfl := pure_eq_ok.mp known
    rw [shape]
    have get : Uses "__r" (code "__r.get_fixed_str::<") [.method "get_fixed_str"] := fun _ => rfl
    exact uses_binding _ ((get.append_silent (silent_number reader_isVariable _)).append_quiet
      (by decide))
  case h_7 shape => rw [shape]; exact uses_decodeDescriptor formed shape known
  case h_8 shape =>
    rw [shape]
    split at known
    · simp only [bind_eq_ok, pure_eq_ok] at known
      obtain ⟨count, counted, rfl⟩ := known
      exact uses_skip (silent_byteLength reader_isVariable _ (silent_decoderCount counted))
    · simp only [bind_eq_ok, pure_eq_ok] at known
      obtain ⟨bits, -, rfl⟩ := known
      exact uses_skip (silent_number reader_isVariable _)
  case h_9 ldpc shape =>
    obtain rfl := pure_eq_ok.mp known
    rw [shape]
    exact uses_skip (silent_number reader_isVariable _)
  case h_10 shape =>
    rw [shape]
    have takes {size : Code} (quiet : Silent "__r" size) : Uses "__r"
        (binding [.word (escaped field.id)] (code "__r.get_bytes" ++ parens size))
        [.method "get_bytes"] := by
      have get : Uses "__r" (code "__r.get_bytes") [.method "get_bytes"] := fun _ => rfl
      exact uses_binding _ (get.append_silent quiet.parens)
    split at known
    · obtain rfl := pure_eq_ok.mp known
      exact takes fun _ => rfl
    · simp only [bind_eq_ok, pure_eq_ok] at known
      obtain ⟨bits, -, size, rfl, rfl⟩ := known
      exact takes (silent_number reader_isVariable _)
    · simp only [bind_eq_ok, pure_eq_ok] at known
      obtain ⟨count, counted, size, rfl, rfl⟩ := known
      exact takes (silent_byteLength reader_isVariable _ (silent_decoderCount counted))
  case h_11 => cases known

theorem uses_decodeSegment {capacity : Nat} {segment : Segment} {draft after : DecoderDraft}
    (planned : segment.Planned capacity) (formed : ∀ field ∈ segment.fields, field.WellFormed)
    (apart : ∀ field ∈ segment.fields, Apart field) (before : Uses "__r" draft.statements uses)
    (read : decodeSegment s draft segment = .ok after) :
    Uses "__r" after.statements (uses ++ segment.access.call.gets) := by
  cases segment with
  | chunk shared =>
    simp only [decodeSegment, bind_eq_ok, pure_eq_ok] at read
    obtain ⟨text, known, rfl⟩ := read
    exact before.append (uses_decodeChunk known)
  | aligned field =>
    obtain ⟨id, named, text, known, rfl⟩ := decodeSegment_aligned planned read
    obtain rfl := ident_eq_ok named
    exact before.append
      (uses_decodeStatements (formed field (.head _)) (apart field (.head _)) known)

theorem silent_shorthand (apart : ∀ field ∈ s.fields, Apart field) : Silent "__r" (shorthand s) := by
  refine silent_joinWith (by decide) fun part listed => ?_
  rw [List.map_map] at listed
  obtain ⟨field, member, rfl⟩ := List.mem_map.mp listed
  exact silent_apart (apart field (Codec.mem_storedFields member).1)

theorem uses_decodeFields {window : Nat} {segments : List Segment} {draft : DecoderDraft}
    (formed : ∀ field ∈ s.fields, field.WellFormed) (apart : ∀ field ∈ s.fields, Apart field)
    (laid : layout window s = .ok segments)
    (read : s.fields.foldlM (decodeField s) { window := BitWindow.empty window } = .ok draft) :
    Uses "__r" draft.statements (segments.flatMap fun segment => segment.access.call.gets) := by
  rw [decodeFields_eq laid rfl] at read
  have start : Uses "__r" ({ window := BitWindow.empty window } : DecoderDraft).statements [] :=
    silent_nil
  refine foldlM_gathers (fun draft uses => Uses "__r" draft.statements uses) _ ?_ start read
  intro segment listed draft after uses before read
  have inside := mem_fields_of_layout laid listed
  exact uses_decodeSegment (layout_planned laid segment listed)
    (fun field member => formed field (inside field member))
    (fun field member => apart field (inside field member)) before read

/-- A structure inside another one is read with the reader that its decoder is given. -/
theorem uses_nestedImpl (name : String) {statements : Code} (reads : Uses "__r" statements uses)
    (made : Silent "__r" value) :
    Uses "__r" (code "impl DecodeFrom for" ++ [.word name] ++ braces (
      code "fn decode_from(__r: &mut Reader<'_>) -> Result<Self, DecodeError>" ++
      braces (statements ++ code "Ok" ++ parens value))) uses := by
  have header : Silent "__r"
      (code "fn decode_from(__r: &mut Reader<'_>) -> Result<Self, DecodeError>") := fun _ => rfl
  have body := (reads.append_quiet (by decide : isQuiet "__r" (code "Ok") = true)).append_silent
    made.parens
  exact Uses.impl name (by decide) (header.append_uses body.braces)

/-- A packet is read with a reader of its own, which is then asked how far it is. -/
theorem uses_packetImpl (name : String) {statements payload : Code}
    (reads : Uses "__r" statements uses) (made : Silent "__r" value)
    (passed : Silent "__r" payload) :
    Uses "__r" (code "impl Decode for" ++ [.word name] ++ braces (
      code "fn decode(buf: &Bytes) -> Result<Decoded<Self>, DecodeError>" ++
      braces (
        code "let mut __reader = Reader::new(buf); let __r = &mut __reader;" ++ statements ++
        code "Ok" ++ parens (code "Decoded" ++ braces (
          code "packet:" ++ value ++ code ", payload:" ++ payload ++
          code ", len: __r.offset()"))))) uses := by
  have opening : Silent "__r"
      (code "let mut __reader = Reader::new(buf); let __r = &mut __reader;") := fun _ => rfl
  have length : Silent "__r" (code ", len: __r.offset()") := fun _ => rfl
  have parts := ((((silent (by decide : isQuiet "__r" (code "packet:") = true)).append
    made).append_quiet (by decide : isQuiet "__r" (code ", payload:") = true)).append_silent
    passed).append_silent length
  have result := ((silent (by decide : isQuiet "__r" (code "Decoded") = true)).append
    parts.braces).parens
  have body := ((opening.append_uses reads).append_quiet
    (by decide : isQuiet "__r" (code "Ok") = true)).append_silent result
  exact Uses.impl name (by decide) ((silent (by decide)).append_uses body.braces)

/-- A decoder makes the calls of its layout. -/
theorem usesOf_decodeImpl {model : Model} {window : Nat} {segments : List Segment} {reader : Code}
    (formed : ∀ field ∈ s.fields, field.WellFormed) (apart : ∀ field ∈ s.fields, Apart field)
    (laid : layout window s = .ok segments) (generated : decodeImpl model window s = .ok reader) :
    usesOf "__r" reader = segments.flatMap fun segment => segment.access.call.gets := by
  simp only [decodeImpl, bind_eq_ok] at generated
  obtain ⟨draft, read, name, named, value, made, generated⟩ := generated
  obtain rfl := constructor_eq made
  obtain rfl := ident_eq_ok named
  have statements := uses_decodeFields formed apart laid read
  have value := Uses.named (escaped s.id) (fun _ => rfl) (silent_shorthand apart).braces
  split at generated
  · obtain rfl := pure_eq_ok.mp generated
    exact (uses_nestedImpl _ statements value).whole
  · obtain rfl := pure_eq_ok.mp generated
    refine (uses_packetImpl _ statements value ?_).whole
    split
    · next id passed =>
      have word := payload_decodeFields (fun field member => silent_apart (apart field member))
        (by simp) read id passed
      exact (silent (by decide)).append word.parens
    · exact silent (by decide)

end Codegen

open Codegen Codec

/-- The generated decoder makes the calls by which the structure is read. -/
def Struct.DecoderAgrees (s : Struct) (model : Model) (window : Nat) : Prop :=
  ∃ segments, layout window s = .ok segments ∧
    (∀ reader, decodeImpl model window s = .ok reader →
      usesOf "__r" reader = segments.flatMap fun segment => segment.access.call.gets) ∧
    ∀ decoders, Performs (Reads decoders) (Codec.decodeStruct model window decoders s)
      (segments.map Segment.access)

theorem Struct.WellFormed.decoderAgrees {window : Nat} {model : Model} {earlier : List Struct}
    {s : Struct} (formed : s.WellFormed window model earlier)
    (apart : ∀ field ∈ s.fields, Apart field) : s.DecoderAgrees model window := by
  obtain ⟨segments, laid⟩ := formed.laid
  exact ⟨segments, laid, fun _ => usesOf_decodeImpl formed.fields.each apart laid,
    fun _ => decodeStruct_performs laid⟩

end PacketSpec
