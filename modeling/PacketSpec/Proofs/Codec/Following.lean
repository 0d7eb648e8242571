import PacketSpec.Proofs.Codec.Pieces
import PacketSpec.Proofs.Codec.Reencoding
import PacketSpec.Proofs.Codec.Static

/-! Reading a structure of known size goes through its pieces, segment by segment, and finds its
fields in what they show. -/
namespace PacketSpec

open Wire Decode Slicing Piece

namespace Field

variable {static : String → Bool} {field : Field}

theorem isStatic_header (known : field.isStatic static = true) : field.shape ≠ .payload := by
  intro shape
  simp [isStatic, shape] at known

theorem isStatic_uncounted (known : field.isStatic static = true) (index : Nat) :
    field.repetition ≠ .fieldRef index := by
  intro repetition
  cases shape : field.shape <;> simp [isStatic, shape, repetition] at known

theorem isStatic_nested {typeId : String} (known : field.isStatic static = true)
    (shape : field.shape = .struct typeId) : static typeId = true := by
  cases repetition : field.repetition <;> simp_all [isStatic]

end Field

/-- Only numbers count a sequence. -/
theorem Field.WellFormed.not_seq {field : Field} (formed : field.WellFormed)
    (other : field.shape.isScalar = false) (wide : field.shape ≠ .bitfield) :
    field.seq = false := by
  cases seq : field.seq with
  | false => rfl
  | true =>
    rcases (formed.seq seq).1 with scalar | bitfield
    · simp [other] at scalar
    · exact absurd bitfield wide

namespace Codec

section Pieces

variable (nested : String → List Piece)

def elementPieces (field : Field) : List Piece :=
  match field.shape with
  | .struct typeId => nested typeId
  | _ => [.whole (field.width / 8)]

def fieldPieces (field : Field) : List Piece :=
  match field.shape, field.repetition with
  | .padding, repetition => [.skipped (field.width * repetition.constantCount / 8)]
  | .parity code, _ => [.skipped (code.parityBits / 8)]
  | _, .constant count =>
    if field.isByteBuffer then [.whole count]
    else (List.replicate count (elementPieces nested field)).flatten
  | _, _ => elementPieces nested field

def segmentPieces : Segment → List Piece
  | .chunk shared => [.whole (shared.width / 8)]
  | .aligned field => fieldPieces nested field

variable {nested} {field : Field}

theorem elementPieces_flat (flat : field.shape.isStruct = false) :
    elementPieces nested field = [.whole (field.width / 8)] := by
  cases shape : field.shape <;> simp_all [elementPieces, Shape.isStruct]

theorem fieldPieces_single (single : field.repetition = .none) (padded : field.shape ≠ .padding)
    (sized : field.shape.isParity = false) :
    fieldPieces nested field = elementPieces nested field := by
  cases shape : field.shape <;> simp_all [fieldPieces, Shape.isParity]

theorem fieldPieces_several {count : Nat} (several : field.repetition = .constant count)
    (padded : field.shape ≠ .padding) (sized : field.shape.isParity = false) :
    fieldPieces nested field = if field.isByteBuffer then [.whole count]
      else (List.replicate count (elementPieces nested field)).flatten := by
  cases shape : field.shape <;> simp_all [fieldPieces, Shape.isParity]

end Pieces

def structPieces (window : Nat) (nested : String → List Piece) (s : Struct) : List Piece :=
  match layout window s with
  | .ok segments => segments.flatMap (segmentPieces nested)
  | .error _ => []

structure FollowsNested (buffer : Bytes) (view : View) (decoder : Decoder) (pieces : List Piece)
    (slicing : Slicing) : Prop where
  extent : slicing.extent = 8 * total pieces
  follows : ∀ declared cursor, Follows buffer view declared cursor decoder pieces
    (slicing.fixed (8 * declared)) (slicing.value view (8 * declared), none)

structure StaticField (model : Model) (static : String → Bool) (field : Field) : Prop where
  formed : field.WellFormed
  resolved : Resolved model field
  measured : field.Measured
  known : field.isStatic static = true

variable {model : Model} {buffer : Bytes} {view : View} {declared cursor : Nat}
  {nested : String → Option Decoder} {pieces : String → List Piece} {slicing : String → Slicing}
  {static : String → Bool} {s : Struct} {record target : Record} {field : Field} {parsed : Parsed}

/-- A field that is one element, and no structure. -/
theorem single_follows {step : Decode Value} (single : field.repetition = .none)
    (flat : field.shape.isStruct = false) (padded : field.shape ≠ .padding)
    (sized : field.shape.isParity = false)
    (reads : Follows buffer view declared cursor step [.whole (field.width / 8)] []
      (elementIn model slicing view field (8 * declared))) :
    Follows buffer view declared cursor step (fieldPieces pieces field)
      (elementsFixed slicing field (8 * declared))
      (fieldIn model slicing view field (8 * declared)) := by
  rw [fieldPieces_single single padded sized, elementPieces_flat flat, elementsFixed_flat flat,
    fieldIn, single]
  exact reads

variable (parts : ∀ typeId, static typeId = true → ∃ decoder, nested typeId = some decoder ∧
  FollowsNested buffer view decoder (pieces typeId) (slicing typeId))

include parts

theorem elementExtent_eq (fixedSize : StaticField model static field)
    (wide : field.isPacked = false) (sized : field.shape.isParity = false) :
    elementExtent slicing field = 8 * total (elementPieces pieces field) := by
  have whole (flat : field.shape.isStruct = false) := fixedSize.formed.width_whole wide flat sized
    (Field.isStatic_header fixedSize.known)
  cases shape : field.shape with
  | struct typeId =>
    obtain ⟨_, -, follows⟩ := parts typeId (Field.isStatic_nested fixedSize.known shape)
    simpa [elementExtent, elementPieces, shape] using follows.extent
  | parity => simp [shape, Shape.isParity] at sized
  | _ =>
    simp only [elementExtent, elementPieces, shape, total, Piece.size]
    have := whole (by simp [shape, Shape.isStruct])
    omega

theorem decodeElement_follows (fixedSize : StaticField model static field)
    (wide : field.isPacked = false) (plain : field.seq = false)
    (kind : field.shape.isElement = true) :
    Follows buffer view declared cursor (decodeElement model nested field)
      (elementPieces pieces field) (elementFixed slicing field (8 * declared))
      (elementIn model slicing view field (8 * declared)) := by
  have formed := fixedSize.formed
  unfold decodeElement
  simp only
  split
  · next shape =>
    simp only [elementPieces, elementFixed, elementIn, shape, plain]
    exact (follows_signed (formed.whole wide (by simp [shape, Shape.isScalar]))).return Value.signed
  · next shape =>
    simp only [elementPieces, elementFixed, elementIn, shape]
    exact (follows_unsigned (formed.whole wide (by simp [shape, Shape.isScalar]))).return
      Value.unsigned
  · next shape =>
    have admits := formed.shape
    simp only [shape, Shape.Admits] at admits
    simp only [elementPieces, elementFixed, elementIn, shape, admits]
    exact follows_rational.return Value.rational
  · next typeId shape =>
    obtain ⟨decoder, found, follows⟩ := parts typeId (Field.isStatic_nested fixedSize.known shape)
    simp only [elementPieces, elementFixed, elementIn, shape, found]
    exact (follows.follows declared cursor).map Prod.fst
  · next typeId shape =>
    obtain ⟨e, found, -⟩ := fixedSize.resolved.enums typeId shape
    have known : model.enum typeId = .ok e := by simp [Model.enum, found]
    simp only [elementPieces, elementFixed, elementIn, shape, found, Option.map_some,
      Option.getD_some]
    refine (follows_check known).after ?_
    exact (follows_unsigned (formed.whole wide (by simp [shape, Shape.isEnum]))).return fun n =>
      Value.enum (e.ofNat n)
  · next other =>
    cases shape : field.shape <;> simp_all [Shape.isElement]

theorem decodeElements_follows (fixedSize : StaticField model static field)
    (wide : field.isPacked = false) (plain : field.seq = false)
    (kind : field.shape.isElement = true) :
    Follows buffer view declared cursor (decodeElements model nested s record field)
      (fieldPieces pieces field) (elementsFixed slicing field (8 * declared))
      (fieldIn model slicing view field (8 * declared)) := by
  have sized : field.shape.isParity = false := by
    cases shape : field.shape <;> simp_all [Shape.isElement, Shape.isParity]
  have padded : field.shape ≠ .padding := by
    intro shape
    simp [shape, Shape.isElement] at kind
  have extent := elementExtent_eq parts fixedSize wide sized
  have element (declared cursor : Nat) :=
    @decodeElement_follows _ _ _ declared cursor _ _ _ _ _ parts fixedSize wide plain kind
  unfold decodeElements
  simp only
  split
  · next single =>
    rw [fieldPieces_single single padded sized, elementsFixed_single single, fieldIn, single]
    exact element declared cursor
  · next count several =>
    rw [fieldPieces_several several padded sized, fieldIn, several]
    simp only
    by_cases raw : field.isByteBuffer = true
    · have flat : field.shape.isStruct = false := by
        cases shape : field.shape <;> simp_all [Field.isByteBuffer, Shape.isStruct]
      rw [if_pos raw, if_pos raw, if_pos raw, elementsFixed_flat flat]
      exact (follows_array count).return Value.bytes
    · have moved (index : Nat) : 8 * (declared + index * total (elementPieces pieces field)) =
          8 * declared + index * elementExtent slicing field := by
        rw [extent, Nat.mul_add, Nat.mul_left_comm]
      have elements :=
        (@follows_times _ _ _ declared cursor _ _ _ _ element count).return Value.list
      simp only [moved] at elements
      rw [if_neg raw, if_neg raw, if_neg raw, elementsFixed, several]
      exact elements
  · next index counted => exact absurd counted (Field.isStatic_uncounted fixedSize.known index)

theorem decodeStored_follows (fixedSize : StaticField model static field)
    (wide : field.isPacked = false) (stored : field.isStored = true) :
    Follows buffer view declared cursor (decodeStored model nested s record field)
      (fieldPieces pieces field) (fixedIn slicing s field (8 * declared))
      (fieldIn model slicing view field (8 * declared)) := by
  have formed := fixedSize.formed
  have admits := formed.shape
  have free : field.fixed = none := by
    simp only [Field.isStored, Bool.and_eq_true, Option.isNone_iff_eq_none] at stored
    exact stored.1.1.1
  have elements (other : field.shape.isScalar = false) (kind : field.shape.isElement = true) :=
    @decodeElements_follows _ _ _ declared cursor _ _ _ _ s record _ parts fixedSize wide
      (formed.not_seq other fun shape => by simp [shape, Shape.isElement] at kind) kind
  rw [fixedIn, free]
  unfold decodeStored
  simp only
  split
  · next signed shape =>
    split
    · next seq =>
      have whole := formed.whole wide (by simp [shape, Shape.isScalar])
      refine single_follows (formed.seq seq).2 (by simp [shape, Shape.isStruct]) (by simp [shape])
        (by simp [shape, Shape.isParity]) ?_
      have number := (@follows_unsigned buffer view declared cursor _ whole).return Value.unsigned
      cases signed <;> simpa [elementIn, shape, seq] using number
    · next other =>
      exact decodeElements_follows parts fixedSize wide (eq_false_of_ne_true other)
        (by simp [shape, Shape.isElement])
  · next shape =>
    exact elements (by simp [shape, Shape.isScalar]) (by simp [shape, Shape.isElement])
  · next shape =>
    exact elements (by simp [shape, Shape.isScalar]) (by simp [shape, Shape.isElement])
  · next shape =>
    exact elements (by simp [shape, Shape.isScalar]) (by simp [shape, Shape.isElement])
  · next shape =>
    simp only [shape, Shape.Admits] at admits
    refine single_follows admits.2.2 (by simp [shape, Shape.isStruct]) (by simp [shape])
      (by simp [shape, Shape.isParity]) ?_
    simpa [elementIn, shape] using (follows_array (field.width / 8)).return Value.bytes
  · next capacity shape =>
    simp only [shape, Shape.Admits] at admits
    have size : field.width / 8 = capacity := by omega
    refine single_follows admits.2.2 (by simp [shape, Shape.isStruct]) (by simp [shape])
      (by simp [shape, Shape.isParity]) ?_
    simpa [elementIn, shape, size] using (follows_fixedText capacity).return (Value.text capacity)
  · next shape =>
    simp only [shape, Shape.Admits] at admits
    refine single_follows admits.2 (by simp [shape, Shape.isStruct]) (by simp [shape])
      (by simp [shape, Shape.isParity]) ?_
    simpa [elementIn, shape] using
      (follows_unsigned (formed.whole wide (by simp [shape]))).return fun code =>
        Value.descriptor (if field.width == 8 then code <<< 8 ||| lsbFlag else code)
  · next other =>
    unfold Shape.Admits at admits
    cases shape : field.shape <;> simp_all [Field.isStored, Shape.isParity]
    simp_all [Field.isPacked]
    omega

omit parts

theorem checkFixed_follows {place : FixedPlace} {actual : Nat} (named : place.packet = s.id)
    (same : actual = place.actual view) :
    Follows buffer view declared cursor (checkFixed s place.field actual place.expected) []
      [place] () := by
  intro bounded shows
  by_cases right : (actual == place.expected) = true
  · simp only [List.findSome?_cons, List.findSome?_nil, FixedPlace.mismatch?, ← same, right,
      if_true, checkFixed]
    rfl
  · simp only [List.findSome?_cons, FixedPlace.mismatch?, ← same, right, checkFixed, named]
    exact ⟨_, rfl⟩

/-- A fixed field outside chunks, given how its number stands for its value. -/
theorem fixed_follows {expected : Nat} {number : Nat → Nat} (formed : field.WellFormed)
    (fixed : field.fixed = some expected) (whole : 8 * (field.width / 8) = field.width)
    (flat : field.shape.isStruct = false) (padded : field.shape ≠ .padding)
    (sized : field.shape.isParity = false)
    (same : number (view (8 * declared) field.width) =
      FixedPlace.actual view ⟨s.id, field, expected, 8 * declared⟩) :
    Follows buffer view declared cursor
      (do
        let code ← read (Reader.unsigned (field.width / 8))
        checkFixed s field (number code) expected
        return parsed)
      (fieldPieces pieces field) (fixedIn slicing s field (8 * declared)) parsed := by
  rw [fieldPieces_single (formed.fixed expected fixed).1 padded sized, elementPieces_flat flat,
    fixedIn, fixed]
  exact (follows_unsigned whole).bind (Follows.return (fun _ => parsed)
    (@checkFixed_follows _ _ _ _ s ⟨s.id, field, expected, 8 * declared⟩ _ rfl same))

/-- What is passed over is not fixed. -/
theorem fixedIn_skipped (formed : field.WellFormed)
    (skipped : field.shape = .padding ∨ field.shape.isParity = true) (start : Nat) :
    fixedIn slicing s field start = [] := by
  cases fixed : field.fixed with
  | none =>
    rw [fixedIn, fixed]
    apply elementsFixed_flat
    cases shape : field.shape <;> simp_all [Shape.isStruct, Shape.isParity]
  | some n =>
    have fixes := (formed.fixed n fixed).2
    cases shape : field.shape <;> simp_all [Shape.isParity]

theorem decodeImplied_follows (fixedSize : StaticField model static field)
    (wide : field.isPacked = false) (implied : field.isStored = false) :
    Follows buffer view declared cursor (decodeImplied s parsed field) (fieldPieces pieces field)
      (fixedIn slicing s field (8 * declared)) parsed := by
  have formed := fixedSize.formed
  have header := Field.isStatic_header fixedSize.known
  unfold decodeImplied
  split
  · next shape =>
    have bits := Field.wireBits?_static fixedSize.measured (by simp [shape, Shape.isStruct]) header
      (Field.isStatic_uncounted fixedSize.known)
    rw [fixedIn_skipped formed (.inl shape)]
    split
    · next index counted => exact absurd counted (Field.isStatic_uncounted fixedSize.known index)
    · have size : field.staticBits = field.width * field.repetition.constantCount := by
        cases repetition : field.repetition <;>
          simp_all [Field.staticBits, Repetition.constantCount]
      rw [size] at bits
      simp only [fieldPieces, shape]
      refine (follows_check bits).after ?_
      exact (follows_skip _).return fun _ => parsed
  · next code shape =>
    rw [fixedIn_skipped formed (by simp [shape, Shape.isParity])]
    simp only [fieldPieces, shape]
    exact (follows_skip _).return fun _ => parsed
  · next shape => exact absurd shape header
  · next expected shape fixed =>
    exact @fixed_follows _ _ _ _ _ _ _ _ _ _
      (fun code => if field.width == 8 then code <<< 8 else code) formed fixed
      (formed.whole wide (by simp [shape])) (by simp [shape, Shape.isStruct])
      (by simp [shape]) (by simp [shape, Shape.isParity]) (by simp [FixedPlace.actual, shape])
  · next expected shape fixed =>
    exact @fixed_follows _ _ _ _ _ _ _ _ _ _ id formed fixed
      (formed.whole wide (by simp [shape, Shape.isScalar])) (by simp [shape, Shape.isStruct])
      (by simp [shape]) (by simp [shape, Shape.isParity]) (by simp [FixedPlace.actual, shape])
  · next padding parity payload descriptor scalar =>
    -- what is neither of these is stored, since outside chunks nothing else is fixed
    exfalso
    have admits := formed.shape
    cases fixed : field.fixed with
    | none => cases shape : field.shape <;> simp_all [Field.isStored, Shape.isParity]
    | some n =>
      have fixes := (formed.fixed n fixed).2
      cases shape : field.shape <;> simp_all [Shape.Admits, Field.isPacked]
      omega

theorem fieldExtent_packed (formed : field.WellFormed) (packed : field.isPacked = true) :
    fieldExtent slicing field = field.width := by
  obtain ⟨-, single, shape | ⟨typeId, shape⟩⟩ := formed.packed packed <;>
    simp [fieldExtent, single, Repetition.constantCount, elementExtent, shape]

theorem extentOf_packed {fields : List Field} (formed : ∀ field ∈ fields, field.WellFormed)
    (packed : ∀ field ∈ fields, field.isPacked = true) :
    extentOf slicing fields = totalWidth fields := by
  induction fields with
  | nil => rfl
  | cons field rest ih =>
    rw [extentOf, totalWidth, fieldExtent_packed (formed field (.head _)) (packed field (.head _)),
      ih (fun other member => formed other (.tail _ member))
        fun other member => packed other (.tail _ member)]

def Finds (model : Model) (slicing : String → Slicing) (view : View) (target : Record)
    (places : List (Field × Nat)) : Prop :=
  ∀ place ∈ places, place.1.isStored = true →
    target.lookup place.1.id = some (fieldIn model slicing view place.1 place.2)

theorem decodePacked_follows {word start : Nat} {packed : Packed Field}
    (fixedSize : StaticField model static packed.symbol) (narrow : packed.symbol.isPacked = true)
    (number : word >>> packed.shift % 1 <<< packed.width = view start packed.symbol.width)
    (found : packed.symbol.isStored = true → target.lookup packed.symbol.id =
      some (fieldIn model slicing view packed.symbol start)) :
    Follows buffer view declared cursor (decodePacked model s word parsed packed) []
      (fixedIn slicing s packed.symbol start) (parsed.hold target packed.symbol) := by
  have formed := fixedSize.formed
  obtain ⟨-, single, shape⟩ := formed.packed narrow
  have flat : packed.symbol.shape.isStruct = false := by
    rcases shape with shape | ⟨typeId, shape⟩ <;> simp [shape, Shape.isStruct]
  unfold decodePacked
  simp only [number]
  split
  · next expected fixed =>
    rw [Parsed.hold_implied (by simp [Field.isStored, fixed]), fixedIn, fixed]
    refine Follows.return (fun _ => parsed)
      (@checkFixed_follows _ _ _ _ s ⟨s.id, packed.symbol, expected, start⟩ _ rfl ?_)
    rcases shape with shape | ⟨typeId, shape⟩ <;> simp [FixedPlace.actual, shape]
  · next typeId free shape =>
    obtain ⟨e, found', -⟩ := fixedSize.resolved.enums typeId shape
    have known : model.enum typeId = .ok e := by simp [Model.enum, found']
    have held := found (formed.stored_of_packed narrow free)
    rw [Parsed.hold_stored (formed.stored_of_packed narrow free) held, fixedIn, free,
      elementsFixed_flat flat]
    simp only [fieldIn, single, elementIn, shape, found', Option.map_some, Option.getD_some]
    exact (follows_check known).after (follows_pure _)
  · next free other =>
    have bitfield : packed.symbol.shape = .bitfield := by
      rcases shape with shape | ⟨typeId, shape⟩
      · exact shape
      · exact absurd shape (other typeId)
    have held := found (formed.stored_of_packed narrow free)
    rw [Parsed.hold_stored (formed.stored_of_packed narrow free) held, fixedIn, free,
      elementsFixed_flat flat]
    simp only [fieldIn, single, elementIn, bitfield]
    exact follows_pure _

theorem decodePackeds_follows {word start : Nat} {fields : List Field}
    (fixedSizes : ∀ field ∈ fields, StaticField model static field)
    (packed : ∀ field ∈ fields, field.isPacked = true)
    (numbers : ∀ offset width, offset + width ≤ totalWidth fields →
      word >>> (totalWidth fields - offset - width) % 1 <<< width = view (start + offset) width)
    (finds : Finds model slicing view target (placed slicing fields start)) :
    Follows buffer view declared cursor
      ((BitWindow.place (totalWidth fields) (widthsOf fields)).foldlM (decodePacked model s word)
        parsed)
      [] (fixedAt slicing s (placed slicing fields start))
      (fields.foldl (Parsed.hold target) parsed) := by
  induction fields generalizing start parsed with
  | nil => exact follows_pure parsed
  | cons field rest ih =>
    have below : totalWidth (field :: rest) - field.width = totalWidth rest := by
      rw [totalWidth, Nat.add_sub_cancel_left]
    have fixedSize := fixedSizes field (.head _)
    have narrow := packed field (.head _)
    rw [widthsOf, List.map_cons, BitWindow.place, below, ← widthsOf, List.foldlM_cons,
      List.foldl_cons, placed, fixedAt, List.flatMap_cons]
    refine Follows.bind (decodePacked_follows fixedSize narrow ?_ (finds _ (.head _)))
      (ih (fun other member => fixedSizes other (.tail _ member))
        (fun other member => packed other (.tail _ member)) ?_ ?_)
    · have number := numbers 0 field.width (by rw [totalWidth]; omega)
      rwa [Nat.sub_zero, below, Nat.add_zero] at number
    · intro offset width inside
      have number := numbers (field.width + offset) width (by rw [totalWidth]; omega)
      rw [fieldExtent_packed fixedSize.formed narrow, Nat.add_assoc, ← number]
      congr 2
      rw [totalWidth]
      omega
    · exact fun place member => finds place (.tail _ member)

theorem decodeChunk_follows {fields : List Field}
    (fixedSizes : ∀ field ∈ fields, StaticField model static field)
    (packed : ∀ field ∈ fields, field.isPacked = true) (whole : totalWidth fields % 8 = 0)
    (finds : Finds model slicing view target (placed slicing fields (8 * declared))) :
    Follows buffer view declared cursor
      (decodeChunk model s parsed
        ⟨totalWidth fields, BitWindow.place (totalWidth fields) (widthsOf fields)⟩)
      [.whole (totalWidth fields / 8)] (fixedAt slicing s (placed slicing fields (8 * declared)))
      (fields.foldl (Parsed.hold target) parsed) := by
  intro bounded shows
  have width : 8 * (totalWidth fields / 8) = totalWidth fields := by omega
  have numbers (offset width' : Nat) (inside : offset + width' ≤ totalWidth fields) :
      view (8 * declared) (totalWidth fields) >>> (totalWidth fields - offset - width') %
        1 <<< width' = view (8 * declared + offset) width' := by
    have number := @Shows.cut _ _ _ _ _ shows offset width' (by omega)
    rwa [width] at number
  exact (follows_unsigned width).bind (decodePackeds_follows fixedSizes packed numbers finds)
    bounded shows

include parts

theorem fieldExtent_eq (fixedSize : StaticField model static field)
    (wide : field.isPacked = false) :
    fieldExtent slicing field = 8 * total (fieldPieces pieces field) := by
  have formed := fixedSize.formed
  have admits := formed.shape
  by_cases padded : field.shape = .padding
  · have whole := formed.whole wide (by simp [padded])
    simp only [fieldExtent, elementExtent, fieldPieces, padded, total, Piece.size]
    rw [← whole, Nat.mul_assoc, Nat.mul_div_cancel_left _ (by decide), Nat.mul_left_comm,
      Nat.mul_comm field.repetition.constantCount, Nat.add_zero]
  by_cases sized : field.shape.isParity = true
  · cases shape : field.shape <;> simp [shape, Shape.isParity] at sized
    next code =>
      simp only [shape, Shape.Admits] at admits
      simp only [fieldExtent, elementExtent, fieldPieces, shape, total, Piece.size, admits.2.2,
        Repetition.constantCount]
      omega
  have sized := eq_false_of_ne_true sized
  have extent := elementExtent_eq parts fixedSize wide sized
  rw [fieldExtent, extent]
  cases repetition : field.repetition with
  | none =>
    rw [fieldPieces_single repetition padded sized]
    simp [Repetition.constantCount]
  | constant count =>
    rw [fieldPieces_several repetition padded sized, Repetition.constantCount]
    split
    · next raw =>
      simp only [Field.isByteBuffer, Bool.and_eq_true, beq_iff_eq] at raw
      simp [elementPieces, raw.1.1, raw.1.2, total, Piece.size, Nat.mul_comm]
    · rw [total_replicate, Nat.mul_left_comm]
  | fieldRef index => exact absurd repetition (Field.isStatic_uncounted fixedSize.known index)

theorem segmentExtent_eq {segment : Segment} (sound : segment.Sound)
    (fixedSizes : ∀ field ∈ segment.fields, StaticField model static field) :
    extentOf slicing segment.fields = 8 * total (segmentPieces pieces segment) := by
  cases segment with
  | chunk shared =>
    obtain ⟨fields, -, rfl, whole, packed⟩ := sound
    rw [Segment.fields, BitWindow.place_symbols] at fixedSizes ⊢
    rw [extentOf_packed (fun field member => (fixedSizes field member).formed) packed]
    simp only [segmentPieces, total, Piece.size]
    omega
  | aligned field =>
    rw [Segment.fields, extentOf, extentOf, Nat.add_zero, segmentPieces]
    exact fieldExtent_eq parts (fixedSizes field (.head _)) sound

theorem decodeSegment_follows {segment : Segment} (sound : segment.Sound)
    (fixedSizes : ∀ field ∈ segment.fields, StaticField model static field)
    (finds : Finds model slicing view target (placed slicing segment.fields (8 * declared))) :
    Follows buffer view declared cursor (decodeSegment model nested s parsed segment)
      (segmentPieces pieces segment)
      (fixedAt slicing s (placed slicing segment.fields (8 * declared)))
      (segment.fields.foldl (Parsed.hold target) parsed) := by
  cases segment with
  | chunk shared =>
    obtain ⟨fields, -, rfl, whole, packed⟩ := sound
    rw [Segment.fields, BitWindow.place_symbols] at fixedSizes finds ⊢
    exact decodeChunk_follows fixedSizes packed whole finds
  | aligned field =>
    have fixedSize := fixedSizes field (.head _)
    simp only [Segment.fields, placed, fixedAt, List.flatMap_singleton, List.foldl_cons,
      List.foldl_nil, decodeSegment, segmentPieces]
    split
    · next stored =>
      rw [Parsed.hold_stored stored (finds (field, 8 * declared) (.head _) stored)]
      exact (decodeStored_follows parts fixedSize sound stored).return (parsed.store field)
    · next implied =>
      have implied := eq_false_of_ne_true implied
      rw [Parsed.hold_implied implied]
      exact decodeImplied_follows fixedSize sound implied

theorem segmentsExtent_eq {segments : List Segment} (sound : ∀ segment ∈ segments, segment.Sound)
    (fixedSizes : ∀ field ∈ segments.flatMap Segment.fields, StaticField model static field) :
    extentOf slicing (segments.flatMap Segment.fields) =
      8 * total (segments.flatMap (segmentPieces pieces)) := by
  induction segments with
  | nil => rfl
  | cons segment rest ih =>
    rw [List.flatMap_cons] at fixedSizes
    rw [List.flatMap_cons, List.flatMap_cons, extentOf_append, total_append, Nat.mul_add,
      segmentExtent_eq parts (sound segment (.head _)) fun field member =>
        fixedSizes field (List.mem_append_left _ member),
      ih (fun other member => sound other (.tail _ member)) fun field member =>
        fixedSizes field (List.mem_append_right _ member)]

/-- Reading the segments one after the other goes through the pieces of all of them. -/
theorem decodeSegments_follows {segments : List Segment}
    (sound : ∀ segment ∈ segments, segment.Sound)
    (fixedSizes : ∀ field ∈ segments.flatMap Segment.fields, StaticField model static field)
    (finds : Finds model slicing view target
      (placed slicing (segments.flatMap Segment.fields) (8 * declared))) :
    Follows buffer view declared cursor (segments.foldlM (decodeSegment model nested s) parsed)
      (segments.flatMap (segmentPieces pieces))
      (fixedAt slicing s (placed slicing (segments.flatMap Segment.fields) (8 * declared)))
      ((segments.flatMap Segment.fields).foldl (Parsed.hold target) parsed) := by
  induction segments generalizing declared cursor parsed with
  | nil => exact follows_pure parsed
  | cons segment rest ih =>
    rw [List.flatMap_cons] at fixedSizes finds
    have first : ∀ field ∈ segment.fields, StaticField model static field := fun field member =>
      fixedSizes field (List.mem_append_left _ member)
    have extent := segmentExtent_eq parts (sound segment (.head _)) first
    rw [placed_append, extent, ← Nat.mul_add] at finds
    rw [List.foldlM_cons, List.flatMap_cons, List.flatMap_cons, placed_append, extent,
      ← Nat.mul_add, fixedAt, List.flatMap_append, List.foldl_append]
    refine (decodeSegment_follows parts (sound segment (.head _)) first fun place member =>
      finds place (List.mem_append_left _ member)).bind ?_
    exact ih (fun other member => sound other (.tail _ member))
      (fun field member => fixedSizes field (List.mem_append_right _ member))
      fun place member => finds place (List.mem_append_right _ member)

section Stored

variable {value : Field → Value} (ids : (s.fields.map Field.id).Nodup)
  (formed : ∀ field ∈ s.fields, field.WellFormed)

omit parts

include ids formed

theorem lookup_stored (member : field ∈ s.storedFields) :
    (s.storedFields.map fun field => (field.id, value field)).lookup field.id =
      some (value field) := by
  apply lookup_of_nodup
  · rw [List.map_map]
    exact nodup_storedFields ids formed
  · exact List.mem_map_of_mem member

/-- A record of all stored fields is collected from what is held of it. -/
theorem collect_hold (recorded : target = s.storedFields.map fun field => (field.id, value field)) :
    (s.storedFields.mapM fun field => do
      return (field.id, ← (s.fields.foldl (Parsed.hold target) {}).record.get field.id) :
        Except Fault Record) = .ok target := by
  rw [recorded]
  apply mapM_eq_ok
  intro field member
  obtain ⟨inside, stored⟩ := mem_storedFields member
  rw [Record.get_eq_ok.mpr (hold_lookup ids inside stored), lookup_stored ids formed member]
  rfl

/-- The record of a structure has what is found in the ranges of its fields. -/
theorem finds_ofStruct (start : Nat) :
    Finds model slicing view (s.storedFields.map fun field =>
      (field.id, fieldIn model slicing view field
        (((placed slicing s.fields start).lookup field).getD start)))
      (placed slicing s.fields start) := by
  intro place member stored
  have inside : place.1 ∈ s.fields := by
    rw [← @placed_fields slicing s.fields start]
    exact List.mem_map_of_mem member
  rw [lookup_stored ids formed (mem_storedFields_of_mem inside stored), lookup_placed ids member,
    Option.getD_some]

end Stored

theorem decodeStruct_follows {window : Nat} {segments : List Segment}
    (laid : layout window s = .ok segments) (ids : (s.fields.map Field.id).Nodup)
    (fixedSizes : ∀ field ∈ s.fields, StaticField model static field) :
    FollowsNested buffer view (decodeStruct model window nested s) (structPieces window pieces s)
      (ofStruct model slicing s) := by
  obtain ⟨whole, sound⟩ := layout_fields laid
  have formed (field : Field) (member : field ∈ s.fields) := (fixedSizes field member).formed
  rw [structPieces, laid]
  refine ⟨?_, fun declared cursor => ?_⟩
  · rw [ofStruct, ← whole]
    exact segmentsExtent_eq parts sound (whole ▸ fixedSizes)
  · have segmentsFollow := @decodeSegments_follows _ buffer view declared cursor _ _ _ _ s _ {}
      parts segments sound (whole ▸ fixedSizes) (whole ▸ finds_ofStruct ids formed (8 * declared))
    rw [whole] at segmentsFollow
    refine (follows_check laid).after ?_
    show Follows buffer view declared cursor _ (segments.flatMap (segmentPieces pieces))
      (fixedAt slicing s (placed slicing s.fields (8 * declared))) _
    rw [← List.append_nil (segments.flatMap _), ← List.append_nil (fixedAt slicing s _)]
    refine segmentsFollow.bind ((follows_check (collect_hold ids formed rfl)).after ?_)
    rw [hold_payload]
    exact follows_pure _

omit parts

/-- Reading a structure goes through its pieces if its size is the same in all packets. -/
theorem followsNested_meaning {window : Nat} (formed : model.WellFormed window) (made : model.Made)
    {structs front : List Struct} (place : model.structs.reverse = front ++ structs) :
    ∀ typeId, meaningOr false (fun nested s => s.fields.all (·.isStatic nested)) structs typeId =
        true →
      ∃ decoder, meaningIn? (decodeStruct model window) structs typeId = some decoder ∧
        FollowsNested buffer view decoder
          (meaningOr [] (structPieces window) structs typeId)
          (meaningOr ⟨0, fun _ => [], fun _ _ => .record []⟩ (ofStruct model) structs typeId) := by
  induction structs generalizing front with
  | nil => simp [meaningOr]
  | cons s earlier ih =>
    have parts := @ih (front ++ [s]) (by simp [place])
    have split : model.structs = earlier.reverse ++ s :: front.reverse := by
      rw [← List.reverse_reverse model.structs, place]
      simp
    have sound := formed.structs earlier.reverse s front.reverse split
    have member : s ∈ model.structs := by simp [split]
    intro typeId known
    simp only [meaningIn?, meaningOr] at known ⊢
    by_cases same : (s.id == typeId) = true
    · simp only [if_pos same] at known ⊢
      obtain ⟨segments, laid⟩ := sound.laid
      refine ⟨_, rfl, decodeStruct_follows parts laid sound.fields.ids fun field inside => ?_⟩
      exact {
        formed := sound.fields.each field inside
        resolved := resolved_of_formed sound.fields formed.enums inside
        measured := (made.structs s member).fields field inside
        known := List.all_eq_true.mp known field inside }
    · simp only [if_neg same] at known ⊢
      exact parts typeId known

end Codec

def Model.pieces (model : Model) (window : Nat) (id : String) : List Piece :=
  meaningOr [] (Codec.structPieces window) model.structs.reverse id

theorem Model.WellFormed.follows_decoder {model : Model} {window : Nat}
    (formed : model.WellFormed window) (made : model.Made) {id : String}
    (known : model.isStatic id = true) :
    ∃ decoder, model.decoder window id = .ok decoder ∧ ∀ buffer view,
      Codec.FollowsNested buffer view decoder (model.pieces window id) (model.slicing id) := by
  have follows (buffer : Bytes) (view : View) :=
    @Codec.followsNested_meaning model buffer view window formed made _ []
      (List.nil_append model.structs.reverse).symm id known
  obtain ⟨decoder, found, -⟩ := follows [] fun _ _ => 0
  refine ⟨decoder, Model.meaning_eq_ok.mpr found, fun buffer view => ?_⟩
  obtain ⟨other, same, follows⟩ := follows buffer view
  rw [found] at same
  cases same
  exact follows

end PacketSpec
