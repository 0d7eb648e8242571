import PacketSpec.Proofs.Codegen.EncodedSize
import PacketSpec.Proofs.Codegen.Variables

/-! The fields that a generated encoder reads from the structure: every stored one, and none else.
Sizes, checks and counts read further fields than the one that they are made for. -/
namespace PacketSpec

theorem Field.wireBits?_eq_none {field : Field} (unknown : field.wireBits? = .ok none) :
    field.shape = .payload ∨ ∃ index, field.repetition = .fieldRef index := by
  unfold Field.wireBits? at unknown
  split at unknown
  · next shape => exact .inl shape
  · next index repetition _ => exact .inr ⟨index, repetition⟩
  · obtain ⟨_, -, impossible⟩ := map_eq_ok.mp unknown
    cases impossible
  · obtain ⟨_, -, impossible⟩ := map_eq_ok.mp unknown
    cases impossible
  · cases unknown

namespace Codegen

open Codec (Segment layout layout_fields layout_planned fields_chunkOf)

def heldFor (field : Field) : List String :=
  if field.isStored then [escaped field.id] else []

def held (field : Field) : Code := code "self." ++ [.word (escaped field.id)]

theorem heldFor_of_stored {field : Field} (stored : field.isStored = true) :
    heldFor field = [escaped field.id] := if_pos stored

theorem heldFor_of_fixed {field : Field} {value : Nat} (fixed : field.fixed = some value) :
    heldFor field = [] := by
  simp [heldFor, Field.isStored, fixed]

variable {allowed : List String} {s : Struct} {field : Field} {value text : Code}
  {needed : List String}

/-- What is known of the fields that an encoder is generated for: if they are read, they and their
counts can be. -/
structure Readable (allowed : List String) (s : Struct) (field : Field) : Prop where
  formed : field.WellFormed
  stored : field.isStored = true → Fetches allowed (held field) (heldFor field)
  counted : ∀ index count, field.repetition = .fieldRef index → encoderCount s index = .ok count →
    Fetches allowed count []

theorem readable_of_mem {model : Model} {earlier : List Struct}
    (formed : WellFormedFields model earlier s.fields)
    (offers : ∀ field ∈ s.fields, field.isStored = true → escaped field.id ∈ allowed)
    (member : field ∈ s.fields) : Readable allowed s field := by
  have each (field) (member : field ∈ s.fields) (stored : field.isStored = true) :
      Fetches allowed (held field) (heldFor field) := by
    rw [heldFor_of_stored stored]
    exact fetches_held (escaped_ne (by decide)) (offers field member stored)
  refine ⟨formed.each field member, each field member, ?_⟩
  intro index text repetition known
  obtain ⟨count, inside, found, counts⟩ := formed.count_of_mem member repetition
  unfold encoderCount at known
  simp only [found] at known
  split at known
  · obtain rfl := pure_eq_ok.mp known
    exact fetches_inert (inert_number _)
  -- A count that is not fixed is stored.
  · next free =>
    simp only [bind_eq_ok, pure_eq_ok] at known
    obtain ⟨id, named, rfl⟩ := known
    obtain rfl := ident_eq_ok named
    have reads := each count inside (counts.stored free)
    exact (reads.append_inert (by decide)).within

theorem fetches_byteLength (size : Nat) (reads : Fetches allowed value needed) :
    Fetches allowed (byteLength value size) needed := by
  unfold byteLength
  split
  · exact reads
  · exact (reads.append_inert (by decide)).append_inert (inert_number size)

theorem fetches_putInteger {width : Nat} {signed : Bool} (reads : Fetches allowed value needed)
    (known : putInteger width signed value = .ok text) : Fetches allowed text needed := by
  simp only [putInteger, bind_eq_ok, pure_eq_ok] at known
  obtain ⟨name, named, rfl⟩ := known
  have each : ∀ name ∈ integerNames, Inert (code s!"w.put_{name}") := by decide
  exact (Inert.append_fetches (each name (mem_integerNames named)) reads.parens).append_inert
    (by decide)

theorem fetches_rangeCheck {width : Nat} {packet label : String}
    (reads : Fetches allowed value needed) :
    Fetches allowed (rangeCheck value width packet label) needed := by
  have condition := ((Inert.append_fetches (by decide : Inert (code "if")) reads).append_inert
    (by decide : Inert (code ">"))).append_inert (inert_mask width)
  have names := (inert_origin packet label).append (by decide : Inert (code ", value:"))
  have error := (((Inert.append_fetches names reads).append_inert
    (by decide : Inert (code "as u64, maximum_value:"))).append_inert
    (inert_mask width)).append_inert (by decide : Inert (code "as u64,"))
  have refusal := Inert.append_fetches (by decide : Inert (code "return Err"))
    (Inert.append_fetches (by decide : Inert (code "EncodeError::InvalidScalarValue"))
      error.braces).parens
  exact (condition.append refusal.braces).mono (List.subset_append_left _ _)

theorem identOf_eq {name : String} (named : Named name) : identOf name = [.word (escaped name)] :=
  ident_eq_ok named

theorem fetches_sharedValue (readable : Readable allowed s field)
    (packed : field.isPacked = true) (named : Named field.id) :
    Fetches allowed (sharedValue field) (heldFor field) := by
  unfold sharedValue
  split
  · next fixed =>
    rw [heldFor_of_fixed fixed]
    exact fetches_inert (inert_hexNumber _)
  · next free =>
    have reads := readable.stored (readable.formed.stored_of_packed packed free)
    rw [identOf_eq named]
    dsimp only
    split
    · exact Inert.append_fetches (by decide) reads.parens
    · split
      · exact ((reads.append_inert (by decide)).append_inert (inert_mask _)).parens
      · exact reads

theorem fetches_sharedCheck (readable : Readable allowed s field)
    (packed : field.isPacked = true) (named : Named field.id) :
    Fetches allowed (sharedCheck s field) [] := by
  unfold sharedCheck
  split
  · exact (fetches_rangeCheck (fetches_sharedValue readable packed named)).within
  · exact fetches_silent (by simp)

theorem fetches_chunkTerm {chunkType : Code} {packed : Packed Code} (typed : Inert chunkType)
    (reads : Fetches allowed packed.symbol needed) :
    Fetches allowed (chunkTerm chunkType packed) needed := by
  have term := ((reads.append_inert (by decide : Inert (code "as"))).append_inert typed).parens
  unfold chunkTerm
  dsimp only
  split
  · exact term
  · exact ((term.append_inert (by decide)).append_inert (inert_number _)).parens

theorem fetches_encodeElement (reads : Fetches allowed value needed)
    (known : encodeElement s field value = .ok text) : Fetches allowed text needed := by
  unfold encodeElement at known
  split at known
  · exact fetches_putInteger reads known
  · obtain rfl := pure_eq_ok.mp known
    exact (Inert.append_fetches (by decide) reads.parens).append_inert (by decide)
  · obtain rfl := pure_eq_ok.mp known
    exact reads.append_inert (by decide)
  · simp only [bind_eq_ok, pure_eq_ok] at known
    obtain ⟨type, typed, put, puts, rfl⟩ := known
    have converted := Inert.append_fetches (by decide : Inert (code "u64::from")) reads.parens
    have written := fetches_putInteger
      ((converted.append_inert (by decide)).append_inert (inert_integer typed)) puts
    have check : Fetches allowed (if field.width < 64 then
        rangeCheck (code "u64::from" ++ parens value) field.width s.id field.id else []) [] := by
      split
      · exact (fetches_rangeCheck converted).within
      · exact fetches_silent (by simp)
    exact check.append written
  · cases known

theorem fetches_encodeElements (reads : Fetches allowed value needed)
    (known : encodeElements s field value = .ok text) : Fetches allowed text needed := by
  unfold encodeElements at known
  split at known
  · exact fetches_encodeElement reads known
  · simp only [bind_eq_ok, pure_eq_ok] at known
    obtain ⟨body, element, rfl⟩ := known
    have elem : Inert (if field.shape.isStruct then code "elem" else code "*elem") := by
      split <;> decide
    have inside : Fetches allowed body [] := fetches_encodeElement (fetches_inert elem) element
    have loop := Inert.append_fetches (by decide : Inert (code "for elem in &")) reads
    exact (loop.append inside.braces).mono (List.subset_append_left _ _)

theorem fetches_put {put behind : Code} (reads : Fetches allowed value needed) (inert : Inert put)
    (ends : Inert behind) : Fetches allowed (put ++ value ++ behind) needed :=
  (Inert.append_fetches inert reads).append_inert ends

theorem fetches_encodeStatements (readable : Readable allowed s field)
    (known : encodeStatements s field (held field) = .ok text) :
    Fetches allowed text (heldFor field) := by
  have reads (always : field.shape.isHeld = true) :=
    readable.stored (readable.formed.stored_of_isHeld always)
  unfold encodeStatements at known
  split at known
  case h_1 shape =>
    split at known
    · next fixed =>
      rw [heldFor_of_fixed fixed]
      exact fetches_putInteger (fetches_inert (inert_hexNumber _)) known
    · next free =>
      have reads := readable.stored (by simp [Field.isStored, free, shape, Shape.isParity])
      split at known
      · simp only [bind_eq_ok] at known
        obtain ⟨type, typed, known⟩ := known
        exact fetches_putInteger
          ((reads.append_inert (by decide)).append_inert (inert_integer typed)) known
      · split at known
        · obtain rfl := pure_eq_ok.mp known
          exact fetches_put reads (by decide) (by decide)
        · exact fetches_encodeElements reads known
  case h_2 shape => exact fetches_encodeElements (reads (by rw [shape]; rfl)) known
  case h_3 shape => exact fetches_encodeElements (reads (by rw [shape]; rfl)) known
  case h_4 shape => exact fetches_encodeElements (reads (by rw [shape]; rfl)) known
  case h_5 shape =>
    obtain rfl := pure_eq_ok.mp known
    exact fetches_put (reads (by rw [shape]; rfl)) (by decide) (by decide)
  case h_6 shape =>
    obtain rfl := pure_eq_ok.mp known
    exact fetches_put (reads (by rw [shape]; rfl)) (by decide) (by decide)
  case h_7 shape =>
    split at known
    · next fixed =>
      rw [heldFor_of_fixed fixed]
      exact fetches_putInteger (fetches_inert (inert_hexNumber _)) known
    · next free =>
      have reads := readable.stored (by simp [Field.isStored, free, shape, Shape.isParity])
      split at known
      · obtain rfl := pure_eq_ok.mp known
        exact fetches_put reads (by decide) (by decide)
      · split at known <;> obtain rfl := pure_eq_ok.mp known
        · exact fetches_put reads (by decide) (by decide)
        · exact fetches_put reads (by decide) (by decide)
  case h_8 shape =>
    rw [show heldFor field = [] by simp [heldFor, Field.isStored, shape]]
    split at known
    · next index repetition =>
      simp only [bind_eq_ok, pure_eq_ok] at known
      obtain ⟨count, counted, rfl⟩ := known
      have size := fetches_byteLength (field.width / 8)
        (readable.counted index count repetition counted)
      exact (Inert.append_fetches (by decide) size.parens).append_inert (by decide)
    · simp only [bind_eq_ok, pure_eq_ok] at known
      obtain ⟨bits, -, rfl⟩ := known
      exact fetches_inert (((by decide : Inert (code "w.put_zeros")).append
        (inert_number _).parens).append (by decide))
  case h_9 ldpc shape =>
    obtain rfl := pure_eq_ok.mp known
    rw [show heldFor field = [] by simp [heldFor, Field.isStored, shape, Shape.isParity]]
    have bits : Inert (number ldpc.codeBits ++ code "," ++ number ldpc.messageBits) :=
      ((inert_number _).append (by decide)).append (inert_number _)
    exact fetches_inert (((by decide : Inert (code "w.put_ldpc")).append bits.parens).append
      (by decide))
  case h_10 shape =>
    obtain rfl := pure_eq_ok.mp known
    rw [show heldFor field = [] by simp [heldFor, Field.isStored, shape]]
    exact fetches_silent (by simp)
  case h_11 => cases known

theorem fetches_countCheck (readable : Readable allowed s field)
    (known : countCheck s field (held field) = .ok text) : Fetches allowed text [] := by
  unfold countCheck at known
  split at known
  · next index repetition =>
    split at known
    · obtain rfl := pure_eq_ok.mp known
      exact fetches_silent (by simp)
    · next stored =>
      simp only [bind_eq_ok, pure_eq_ok] at known
      obtain ⟨count, counted, rfl⟩ := known
      have reads := (readable.stored (by simpa using stored)).within
      have counts := readable.counted index count repetition counted
      have condition := ((Inert.append_fetches (by decide : Inert (code "if")) reads).append_inert
        (by decide : Inert (code ".len() !="))).append counts
      have names := (inert_origin s.id field.id).append (by decide : Inert (code ", count:"))
      have error := (((Inert.append_fetches names reads).append_inert
        (by decide : Inert (code ".len(), expected:"))).append counts).append_inert
        (by decide : Inert (code ","))
      have refusal := (Inert.append_fetches (by decide : Inert (code "return Err"))
        (Inert.append_fetches (by decide : Inert (code "EncodeError::InvalidArrayCount"))
          error.braces).parens).append_inert (by decide : Inert (code ";"))
      exact condition.append refusal.braces
  · obtain rfl := pure_eq_ok.mp known
    exact fetches_silent (by simp)

structure EncoderDraft.Reads (allowed : List String) (draft : EncoderDraft) (needed : List String) :
    Prop where
  statements : Fetches allowed draft.statements needed
  sizes : ∀ size ∈ draft.variableSizes, Fetches allowed size []

theorem reads_encodeSize {draft after : EncoderDraft} (readable : Readable allowed s field)
    (before : draft.Reads allowed needed)
    (sized : encodeSize s draft field (held field) = .ok after) : after.Reads allowed needed := by
  have adds {size : Code} (reads : Fetches allowed size []) :
      (draft.addVariable size).Reads allowed needed :=
    ⟨before.statements, List.forall_mem_append.mpr ⟨before.sizes, by simpa using reads⟩⟩
  unfold encodeSize at sized
  split at sized
  · obtain rfl := pure_eq_ok.mp sized
    exact before
  next other =>
  split at sized
  · next nested =>
    obtain rfl := pure_eq_ok.mp sized
    have held : field.shape.isHeld = true := by
      cases shape : field.shape <;> simp_all [Shape.isStruct, Shape.isHeld]
    have reads := (readable.stored (readable.formed.stored_of_isHeld held)).within
    apply adds
    apply reads.append_inert
    split <;> decide
  · obtain ⟨bits, measured, sized⟩ := bind_eq_ok.mp sized
    split at sized
    · obtain rfl := pure_eq_ok.mp sized
      exact ⟨before.statements, before.sizes⟩
    · split at sized
      · next index repetition =>
        split at sized
        · next stored =>
          obtain rfl := pure_eq_ok.mp sized
          have reads := (readable.stored stored).within
          exact adds (fetches_byteLength _ (reads.append_inert (by decide)))
        · simp only [bind_eq_ok, pure_eq_ok] at sized
          obtain ⟨count, counted, rfl⟩ := sized
          exact adds (fetches_byteLength _ (readable.counted index count repetition counted))
      · next single =>
        rcases Field.wireBits?_eq_none measured with shape | ⟨index, repetition⟩
        · exact absurd shape (by simpa using other)
        · exact absurd repetition (single index)

theorem reads_encodeSegment {capacity : Nat} {segment : Segment} {draft after : EncoderDraft}
    (planned : segment.Planned capacity)
    (readable : ∀ field ∈ segment.fields, Readable allowed s field)
    (named : ∀ field ∈ segment.fields, Named field.id) (before : draft.Reads allowed needed)
    (written : encodeSegment s draft segment = .ok after) :
    after.Reads allowed (needed ++ segment.fields.flatMap heldFor) := by
  cases segment with
  | chunk shared =>
    obtain ⟨fields, rfl, packed, -⟩ := planned
    rw [encodeSegment] at written
    rw [fields_chunkOf] at readable named written
    simp only [encodeChunk, bind_eq_ok, pure_eq_ok] at written
    obtain ⟨type, typed, put, puts, rfl⟩ := written
    have checks : Fetches allowed (fields.flatMap (sharedCheck s)) (fields.flatMap fun _ => []) :=
      fetches_flatMap fun field member =>
        fetches_sharedCheck (readable field member) (packed field member) (named field member)
    have terms : Fetches allowed (joinWith '|' ((BitWindow.chunkOf (widthsOf fields)).fields.map
        fun packed => chunkTerm type (packed.map sharedValue)))
        ((BitWindow.chunkOf (widthsOf fields)).fields.flatMap fun packed =>
          heldFor packed.symbol) := by
      apply fetches_joinWith
      intro part inside
      have member : part.symbol ∈ fields := by
        rw [← fields_chunkOf fields]
        exact List.mem_map_of_mem inside
      exact fetches_chunkTerm (inert_integer typed)
        (fetches_sharedValue (readable _ member) (packed _ member) (named _ member))
    rw [Chunk.map, List.map_map] at puts
    have written := fetches_putInteger terms puts
    rw [Segment.fields, List.flatMap_map]
    exact ⟨(before.statements.append checks.within).append written |>.mono (by simp), before.sizes⟩
  | aligned field =>
    have readable := readable field (.head _)
    obtain ⟨id, known, middle, sized, check, checked, text, done, rfl⟩ :=
      encodeSegment_aligned planned written
    obtain rfl := ident_eq_ok known
    have sizes := reads_encodeSize readable before sized
    rw [Segment.fields, List.flatMap_singleton]
    refine ⟨sizes.statements.append ?_, sizes.sizes⟩
    exact (fetches_countCheck readable checked).append (fetches_encodeStatements readable done)

theorem EncoderDraft.Reads.size {draft : EncoderDraft} (reads : draft.Reads allowed needed) :
    Fetches allowed draft.size [] := by
  have sum : Fetches allowed (joinWith '+' draft.variableSizes) [] := by
    have joined : Fetches allowed (joinWith '+' (draft.variableSizes.map id))
        (draft.variableSizes.flatMap fun _ => []) := fetches_joinWith reads.sizes
    rw [List.map_id] at joined
    exact joined.within
  unfold EncoderDraft.size
  dsimp only
  split
  · exact fetches_inert (inert_number _)
  · split
    · exact sum
    · exact Inert.append_fetches ((inert_number _).append (by decide)) sum

theorem fetches_encoderText {name : Code} {draft : EncoderDraft} (inert : Inert name)
    (reads : draft.Reads allowed needed) :
    Fetches allowed (encoderText name draft.size draft.statements) needed := by
  have length : code "fn encoded_len(&self) -> usize" =
      code "fn encoded_len(&" ++ [.word "self", .mark ')'] ++ code "-> usize" := rfl
  have method : code "fn encode(&self, w: &mut Writer<'_>) -> Result<(), EncodeError>" =
      code "fn encode(&" ++ [.word "self", .mark ','] ++
        code "w: &mut Writer<'_>) -> Result<(), EncodeError>" := rfl
  have sizing : Fetches allowed (code "fn encoded_len(&self) -> usize") [] := by
    rw [length]
    exact fetches_put (fetches_self (by decide)) (by decide) (by decide)
  have writing : Fetches allowed
      (code "fn encode(&self, w: &mut Writer<'_>) -> Result<(), EncodeError>") [] := by
    rw [method]
    exact fetches_put (fetches_self (by decide)) (by decide) (by decide)
  have body := reads.statements.append_inert (by decide : Inert (code "Ok(())"))
  have methods := ((sizing.append reads.size.braces).append writing).append body.braces
  exact Inert.append_fetches ((by decide : Inert (code "impl Encode for")).append inert)
    methods.braces

/-- An encoder reads every stored field, and none that is not stored. -/
theorem readNames_encodeImpl {model : Model} {window : Nat} {earlier : List Struct}
    {writer : Code} (formed : s.WellFormed window model earlier)
    (offers : ∀ field ∈ s.fields, field.isStored = true → escaped field.id ∈ allowed)
    (generated : encodeImpl window s = .ok writer) :
    s.fields.flatMap heldFor ⊆ readNames writer ∧ readNames writer ⊆ allowed := by
  simp only [encodeImpl, bind_eq_ok, pure_eq_ok] at generated
  obtain ⟨draft, folded, name, known, rfl⟩ := generated
  obtain ⟨segments, laid⟩ := formed.laid
  have named := named_of_encodeFields folded
  rw [encodeFields_eq laid named rfl] at folded
  have reads : draft.Reads allowed (s.fields.flatMap heldFor) := by
    refine foldlM_layout laid (EncoderDraft.Reads allowed) heldFor ?_
      ⟨fetches_silent (by simp), by simp⟩ folded
    intro segment listed inside draft after needed before written
    exact reads_encodeSegment (layout_planned laid segment listed)
      (fun field member => readable_of_mem formed.fields offers (inside field member))
      (fun field member => named field (inside field member)) before written
  exact (fetches_encoderText (inert_ident known) reads).readNames

end Codegen

end PacketSpec
