import PacketSpec.Proofs.Codegen.Calls
import PacketSpec.Proofs.Codegen.HeldFields

/-! The calls of a generated encoder: those by which the structure is written, in their order. -/
namespace PacketSpec

namespace Codegen

open Codec (Segment layout layout_fields layout_planned fields_chunkOf)

variable {s : Struct} {field : Field} {value text : Code} {uses : List Use}

theorem writer_isVariable : IsVariable "w" := by decide

theorem uses_writer {method : String} (acts : method ≠ "remaining" ∧ method ≠ "offset") :
    Uses "w" [.word "w", .mark '.', .word method] [.method method] := by
  intro rest
  have here : useBefore (.mark '.' :: .word method :: rest) = [.method method] := by
    rw [useBefore, if_neg (by simp [acts])]
  show usesOf "w" (.word "w" :: .mark '.' :: .word method :: rest) = _
  rw [usesOf, if_pos rfl, here]
  rfl

theorem silent_field (field : Field) : Silent "w" (held field) := silent_held _ (by decide)

theorem silent_encoderCount {index : Nat} (known : encoderCount s index = .ok text) :
    Silent "w" text := by
  unfold encoderCount at known
  split at known
  · cases known
  · split at known
    · obtain rfl := pure_eq_ok.mp known
      exact silent_number writer_isVariable _
    · simp only [bind_eq_ok, pure_eq_ok] at known
      obtain ⟨id, named, rfl⟩ := known
      obtain rfl := ident_eq_ok named
      exact (silent_field _).append (silent (by decide))

theorem silent_integer {width : Nat} {signed : Bool} (known : integer width signed = .ok text) :
    Silent "w" text := by
  simp only [integer, bind_eq_ok, pure_eq_ok] at known
  obtain ⟨name, named, rfl⟩ := known
  have each : ∀ name ∈ integerNames, name ≠ "w" := by decide
  exact silent_word (each name (mem_integerNames named))

theorem uses_putInteger {width : Nat} {signed : Bool} (argument : Silent "w" value)
    (known : putInteger width signed value = .ok text) :
    Uses "w" text (Call.integer width signed).puts := by
  simp only [putInteger, bind_eq_ok, pure_eq_ok] at known
  obtain ⟨name, named, rfl⟩ := known
  have each : ∀ name ∈ integerNames,
      code s!"w.put_{name}" = [.word "w", .mark '.', .word s!"put_{name}"] ∧
        (s!"put_{name}" ≠ "remaining" ∧ s!"put_{name}" ≠ "offset") := by
    decide
  obtain ⟨spelled, acts⟩ := each name (mem_integerNames named)
  rw [spelled, Call.puts, integerMethod, named]
  exact ((uses_writer acts).append_silent argument.parens).append_silent (silent (by decide))

theorem silent_rangeCheck {width : Nat} {packet label : String} (checked : Silent "w" value) :
    Silent "w" (rangeCheck value width packet label) := by
  intro rest
  simp (disch := decide) only [rangeCheck, List.append_assoc, usesOf_quiet, usesOf_parens,
    usesOf_braces, usesOf_quoted, checked.read, (silent_mask writer_isVariable width).read,
    List.nil_append]

theorem silent_countCheck (known : countCheck s field (held field) = .ok text) :
    Silent "w" text := by
  unfold countCheck at known
  split at known
  · split at known
    · obtain rfl := pure_eq_ok.mp known
      exact silent_nil
    · simp only [bind_eq_ok, pure_eq_ok] at known
      obtain ⟨count, counted, rfl⟩ := known
      intro rest
      simp (disch := decide) only [List.append_assoc, usesOf_quiet, usesOf_parens, usesOf_braces,
        usesOf_quoted, (silent_field field).read, (silent_encoderCount counted).read,
        List.nil_append]
  · obtain rfl := pure_eq_ok.mp known
    exact silent_nil

theorem silent_sharedValue (named : Named field.id) : Silent "w" (sharedValue field) := by
  unfold sharedValue
  rw [identOf_eq named]
  split
  · exact silent_hexNumber writer_isVariable _
  · dsimp only
    split
    · exact (silent (by decide : isQuiet "w" (code "u64::from") = true)).append
        (silent_field field).parens
    · split
      · exact (((silent_field field).append (silent (by decide))).append
          (silent_mask writer_isVariable _)).parens
      · exact silent_field field

theorem silent_sharedCheck (named : Named field.id) : Silent "w" (sharedCheck s field) := by
  unfold sharedCheck
  split
  · exact silent_rangeCheck (silent_sharedValue named)
  · exact silent_nil

theorem silent_chunkTerm {chunkType : Code} {packed : Packed Code} (typed : Silent "w" chunkType)
    (shared : Silent "w" packed.symbol) : Silent "w" (chunkTerm chunkType packed) := by
  have term := ((shared.append (silent (by decide : isQuiet "w" (code "as") = true))).append
    typed).parens
  unfold chunkTerm
  dsimp only
  split
  · exact term
  · exact ((term.append_silent (silent (by decide))).append_silent
      (silent_number writer_isVariable _)).parens

theorem uses_slice (quiet : Silent "w" value) :
    Uses "w" (code "w.put_slice(&" ++ value ++ code ")?;") [.method "put_slice"] := by
  have put : Uses "w" (code "w.put_slice(&") [.method "put_slice"] := fun _ => rfl
  exact (put.append_silent quiet).append_silent (silent (by decide))

theorem uses_encodeElement (quiet : Silent "w" value)
    (known : encodeElement s field value = .ok text) : Uses "w" text field.elementCall.puts := by
  unfold encodeElement at known
  unfold Field.elementCall
  split at known
  · next shape =>
    rw [shape]
    exact uses_putInteger quiet known
  · next shape =>
    obtain rfl := pure_eq_ok.mp known
    rw [shape]
    have put : Uses "w" (code "w.put_rational") [.method "put_rational"] := fun _ => rfl
    exact (put.append_silent quiet.parens).append_silent (silent (by decide))
  · next shape =>
    obtain rfl := pure_eq_ok.mp known
    rw [shape]
    exact quiet.append_uses fun _ => rfl
  · next shape =>
    simp only [bind_eq_ok, pure_eq_ok] at known
    obtain ⟨type, typed, put, puts, rfl⟩ := known
    rw [shape]
    have converted := (silent (by decide : isQuiet "w" (code "u64::from") = true)).append
      quiet.parens
    have check : Silent "w" (if field.width < 64 then
        rangeCheck (code "u64::from" ++ parens value) field.width s.id field.id else []) := by
      split
      · exact silent_rangeCheck converted
      · exact silent_nil
    exact check.append_uses (uses_putInteger
      ((converted.append (silent (by decide))).append (silent_integer typed)) puts)
  · cases known

theorem uses_encodeElements (known : encodeElements s field (held field) = .ok text) :
    Uses "w" text field.elementCall.puts := by
  unfold encodeElements at known
  split at known
  · exact uses_encodeElement (silent_field field) known
  · simp only [bind_eq_ok, pure_eq_ok] at known
    obtain ⟨body, element, rfl⟩ := known
    have elem : Silent "w" (if field.shape.isStruct then code "elem" else code "*elem") := by
      split <;> exact silent (by decide)
    exact ((silent (by decide)).append (silent_field field)).append_uses
      (uses_encodeElement elem element).braces

theorem puts_elementsAccess (plain : ¬ (field.isByteBuffer && field.repetition != .none) = true) :
    field.elementsAccess.call.puts = field.elementCall.puts := by
  unfold Field.elementsAccess
  split <;> simp_all

/-- The statements for a field make its call. -/
theorem uses_encodeStatements (formed : field.WellFormed)
    (known : encodeStatements s field (held field) = .ok text) :
    Uses "w" text field.access.call.puts := by
  have elements (flat : field.shape.isScalar = false)
      (known : encodeElements s field (held field) = .ok text) :
      Uses "w" text field.elementsAccess.call.puts := by
    rw [puts_elementsAccess]
    · exact uses_encodeElements known
    · cases shape : field.shape <;> simp_all [Field.isByteBuffer, Shape.isScalar]
  unfold encodeStatements at known
  unfold Field.access
  split at known
  case h_1 shape =>
    rw [shape]
    dsimp only
    split at known
    · next fixed =>
      rw [fixed]
      exact uses_putInteger (silent_hexNumber writer_isVariable _) known
    · next free =>
      rw [free, Option.isSome_none, Bool.false_or]
      split at known
      · next sequence =>
        simp only [bind_eq_ok] at known
        obtain ⟨type, typed, known⟩ := known
        rw [if_pos sequence]
        exact uses_putInteger (((silent_field field).append (silent (by decide))).append
          (silent_integer typed)) known
      · next plain =>
        rw [if_neg plain]
        split at known
        · next buffered =>
          obtain rfl := pure_eq_ok.mp known
          have slice : field.elementsAccess.call.puts = [.method "put_slice"] := by
            unfold Field.elementsAccess
            cases repetition : field.repetition <;> simp_all [Call.puts]
          rw [slice]
          exact uses_slice (silent_field field)
        · next other =>
          rw [puts_elementsAccess other]
          exact uses_encodeElements known
  case h_2 shape => rw [shape]; exact elements (by rw [shape]; rfl) known
  case h_3 shape => rw [shape]; exact elements (by rw [shape]; rfl) known
  case h_4 shape => rw [shape]; exact elements (by rw [shape]; rfl) known
  case h_5 shape =>
    obtain rfl := pure_eq_ok.mp known
    rw [shape]
    exact uses_slice (silent_field field)
  case h_6 shape =>
    obtain rfl := pure_eq_ok.mp known
    rw [shape]
    have put : Uses "w" (code "w.put_fixed_str(&") [.method "put_fixed_str"] := fun _ => rfl
    exact (put.append_silent (silent_field field)).append_silent (silent (by decide))
  case h_7 shape =>
    rw [shape]
    dsimp only
    split at known
    · exact uses_putInteger (silent_hexNumber writer_isVariable _) known
    · have first : Uses "w" (code "w.put_u8((") (Call.integer 8 false).puts := fun _ => rfl
      have second : Uses "w" (code "w.put_u16(") (Call.integer 16 false).puts := fun _ => rfl
      have third : Uses "w" (code "w.put_u32(u32::from(") (Call.integer 32 false).puts :=
        fun _ => rfl
      rcases formed.descriptor_width shape with width | width | width
      all_goals
        rw [width] at known ⊢
        obtain rfl := pure_eq_ok.mp known
      · exact (first.append_silent (silent_field field)).append_silent (silent (by decide))
      · exact (second.append_silent (silent_field field)).append_silent (silent (by decide))
      · exact (third.append_silent (silent_field field)).append_silent (silent (by decide))
  case h_8 shape =>
    rw [shape]
    have put : Uses "w" (code "w.put_zeros") [.method "put_zeros"] := fun _ => rfl
    split at known
    · simp only [bind_eq_ok, pure_eq_ok] at known
      obtain ⟨count, counted, rfl⟩ := known
      have size := silent_byteLength writer_isVariable (field.width / 8)
        (silent_encoderCount counted)
      exact (put.append_silent size.parens).append_silent (silent (by decide))
    · simp only [bind_eq_ok, pure_eq_ok] at known
      obtain ⟨bits, -, rfl⟩ := known
      exact (put.append_silent (silent_number writer_isVariable _).parens).append_silent
        (silent (by decide))
  case h_9 ldpc shape =>
    obtain rfl := pure_eq_ok.mp known
    rw [shape]
    have put : Uses "w" (code "w.put_ldpc") [.method "put_ldpc"] := fun _ => rfl
    have bits := ((silent_number writer_isVariable ldpc.codeBits).append
      (silent (by decide : isQuiet "w" (code ",") = true))).append
      (silent_number writer_isVariable ldpc.messageBits)
    exact (put.append_silent bits.parens).append_silent (silent (by decide))
  case h_10 shape =>
    obtain rfl := pure_eq_ok.mp known
    rw [shape]
    exact silent_nil
  case h_11 => cases known

structure EncoderDraft.Calls (draft : EncoderDraft) (uses : List Use) : Prop where
  statements : Uses "w" draft.statements uses
  sizes : ∀ size ∈ draft.variableSizes, Silent "w" size

theorem calls_encodeSize {draft after : EncoderDraft} (before : draft.Calls uses)
    (sized : encodeSize s draft field (held field) = .ok after) : after.Calls uses := by
  have adds {size : Code} (quiet : Silent "w" size) : (draft.addVariable size).Calls uses :=
    ⟨before.statements, List.forall_mem_append.mpr ⟨before.sizes, by simpa using quiet⟩⟩
  unfold encodeSize at sized
  split at sized
  · obtain rfl := pure_eq_ok.mp sized
    exact before
  split at sized
  · obtain rfl := pure_eq_ok.mp sized
    apply adds
    apply (silent_field field).append
    split <;> exact silent (by decide)
  · obtain ⟨bits, -, sized⟩ := bind_eq_ok.mp sized
    have counted := silent_byteLength writer_isVariable (field.width / 8)
      ((silent_field field).append (silent (by decide : isQuiet "w" (code ".len()") = true)))
    split at sized
    · obtain rfl := pure_eq_ok.mp sized
      exact ⟨before.statements, before.sizes⟩
    · split at sized
      · split at sized
        · obtain rfl := pure_eq_ok.mp sized
          exact adds counted
        · simp only [bind_eq_ok, pure_eq_ok] at sized
          obtain ⟨count, known, rfl⟩ := sized
          exact adds (silent_byteLength writer_isVariable _ (silent_encoderCount known))
      · obtain rfl := pure_eq_ok.mp sized
        exact adds counted

theorem calls_encodeSegment {capacity : Nat} {segment : Segment} {draft after : EncoderDraft}
    (planned : segment.Planned capacity) (formed : ∀ field ∈ segment.fields, field.WellFormed)
    (named : ∀ field ∈ segment.fields, Named field.id) (before : draft.Calls uses)
    (written : encodeSegment s draft segment = .ok after) :
    after.Calls (uses ++ segment.access.call.puts) := by
  cases segment with
  | chunk shared =>
    obtain ⟨fields, rfl, packed, -⟩ := planned
    rw [encodeSegment] at written
    rw [fields_chunkOf] at named written
    simp only [encodeChunk, bind_eq_ok, pure_eq_ok] at written
    obtain ⟨type, typed, put, puts, rfl⟩ := written
    have checks : Silent "w" (fields.flatMap (sharedCheck s)) := by
      rw [List.flatMap_def]
      refine silent_flatten fun check listed => ?_
      obtain ⟨field, member, rfl⟩ := List.mem_map.mp listed
      exact silent_sharedCheck (named field member)
    refine ⟨(before.statements.append_silent checks).append (uses_putInteger ?_ puts), before.sizes⟩
    refine silent_joinWith (by decide) fun term listed => ?_
    obtain ⟨part, inside, rfl⟩ := List.mem_map.mp listed
    obtain ⟨place, member, rfl⟩ := List.mem_map.mp inside
    refine silent_chunkTerm (silent_integer typed) (silent_sharedValue (named place.symbol ?_))
    rw [← fields_chunkOf fields]
    exact List.mem_map_of_mem member
  | aligned field =>
    obtain ⟨id, known, middle, sized, check, checked, text, done, rfl⟩ :=
      encodeSegment_aligned planned written
    obtain rfl := ident_eq_ok known
    have sizes := calls_encodeSize before sized
    exact ⟨sizes.statements.append ((silent_countCheck checked).append_uses
      (uses_encodeStatements (formed field (.head _)) done)), sizes.sizes⟩

theorem EncoderDraft.Calls.size {draft : EncoderDraft} (calls : draft.Calls uses) :
    Silent "w" draft.size := by
  have constant := silent_number writer_isVariable draft.constantSize
  have sum : Silent "w" (joinWith '+' draft.variableSizes) :=
    silent_joinWith (by decide) calls.sizes
  unfold EncoderDraft.size
  dsimp only
  split
  · exact constant
  · split
    · exact sum
    · exact (constant.append (silent (by decide))).append sum

theorem uses_encoderText (name : String) {draft : EncoderDraft} (calls : draft.Calls uses) :
    Uses "w" (encoderText [.word name] draft.size draft.statements) uses := by
  have sizing := (silent (by decide : isQuiet "w" (code "fn encoded_len(&self) -> usize") =
    true)).append calls.size.braces
  have header : Silent "w"
      (code "fn encode(&self, w: &mut Writer<'_>) -> Result<(), EncodeError>") := fun _ => rfl
  have body := calls.statements.append_silent
    (silent (by decide : isQuiet "w" (code "Ok(())") = true))
  exact Uses.impl name (by decide) ((sizing.append header).append_uses body.braces)

/-- An encoder makes the calls of its layout. -/
theorem usesOf_encodeImpl {model : Model} {window : Nat} {earlier : List Struct}
    {segments : List Segment} {writer : Code} (formed : s.WellFormed window model earlier)
    (laid : layout window s = .ok segments) (generated : encodeImpl window s = .ok writer) :
    usesOf "w" writer = segments.flatMap fun segment => segment.access.call.puts := by
  simp only [encodeImpl, bind_eq_ok, pure_eq_ok] at generated
  obtain ⟨draft, folded, name, known, rfl⟩ := generated
  obtain rfl := ident_eq_ok known
  have named := named_of_encodeFields folded
  rw [encodeFields_eq laid named rfl] at folded
  have calls : draft.Calls (segments.flatMap fun segment => segment.access.call.puts) := by
    have start : ({ window := BitWindow.empty window } : EncoderDraft).Calls [] :=
      ⟨silent_nil, by simp⟩
    refine foldlM_gathers EncoderDraft.Calls _ ?_ start folded
    intro segment listed draft after uses before written
    have inside := mem_fields_of_layout laid listed
    exact calls_encodeSegment (layout_planned laid segment listed)
      (fun field member => formed.fields.each field (inside field member))
      (fun field member => named field (inside field member)) before written
  exact (uses_encoderText (escaped s.id) calls).whole

end Codegen

open Codegen Codec Format

/-- The generated encoder makes the calls by which the structure is written. -/
def Struct.EncoderAgrees (s : Struct) (model : Model) (window : Nat) : Prop :=
  ∃ segments, layout window s = .ok segments ∧
    (∀ writer, encodeImpl window s = .ok writer →
      usesOf "w" writer = segments.flatMap fun segment => segment.access.call.puts) ∧
    ∀ encoders record, recordTyped model s record = true →
      Performs (Writes encoders) (Codec.encodeStruct window encoders s (.record record))
        (segments.map Segment.access)

theorem Struct.WellFormed.encoderAgrees {window : Nat} {model : Model} {earlier : List Struct}
    {s : Struct} (formed : s.WellFormed window model earlier) : s.EncoderAgrees model window := by
  obtain ⟨segments, laid⟩ := formed.laid
  exact ⟨segments, laid, fun _ => usesOf_encodeImpl formed laid,
    fun _ _ typed => encodeStruct_performs typed laid⟩

end PacketSpec
