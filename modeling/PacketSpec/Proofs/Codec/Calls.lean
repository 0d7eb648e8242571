import PacketSpec.Codec.Encode
import PacketSpec.Proofs.Codec.Decoding

/-! The calls by which structures are written and read. Each segment of a layout has one, which is
made once or, for the elements of an array, over and over. A structure is written and read by the
calls of its layout, in their order. -/
namespace PacketSpec

open Wire

/-- What is written or read at once. -/
inductive Call where
  | integer (width : Nat) (signed : Bool)
  | rational
  /-- As many bytes as the structure says. -/
  | array
  /-- As many bytes as a count says. -/
  | slice
  | text
  | gap
  | parity (code : LdpcCode)
  | payload
  | nested (typeId : String)
  deriving DecidableEq, Repr

structure Access where
  call : Call
  /-- Whether the call is made for every element of an array. -/
  each : Bool := false
  deriving DecidableEq, Repr

def Field.elementCall (field : Field) : Call :=
  match field.shape with
  | .scalar signed => .integer field.width signed
  | .rational => .rational
  | .struct typeId => .nested typeId
  | _ => .integer field.width false

theorem Field.fixed_of_stored {field : Field} (stored : field.isStored = true) :
    field.fixed = none := by
  simp only [isStored, Bool.and_eq_true, Option.isNone_iff_eq_none] at stored
  exact stored.1.1.1

/-- Several plain bytes are written and read at once. -/
def Field.elementsAccess (field : Field) : Access :=
  match field.repetition, field.isByteBuffer with
  | .none, _ => ⟨field.elementCall, false⟩
  | .constant _, true => ⟨.array, false⟩
  | .fieldRef _, true => ⟨.slice, false⟩
  | _, false => ⟨field.elementCall, true⟩

def Field.access (field : Field) : Access :=
  match field.shape with
  | .scalar _ =>
    if field.fixed.isSome || field.seq then ⟨.integer field.width false, false⟩
    else field.elementsAccess
  | .rational | .struct _ | .enum _ => field.elementsAccess
  | .bytes => ⟨.array, false⟩
  | .string _ => ⟨.text, false⟩
  | .padding => ⟨.gap, false⟩
  | .parity code => ⟨.parity code, false⟩
  | .payload => ⟨.payload, false⟩
  | .bitfield | .descriptor => ⟨.integer field.width false, false⟩

def Codec.Segment.access : Codec.Segment → Access
  | .chunk shared => ⟨.integer shared.width false, false⟩
  | .aligned field => field.access

/-- The calls lead from one state to another, if `step` says what a single one does. -/
inductive Runs {σ : Type} (step : Call → σ → σ → Prop) : List Access → σ → σ → Prop
  | done {state : σ} : Runs step [] state state
  | once {call : Call} {rest : List Access} {before middle after : σ}
      (first : step call before middle) (others : Runs step rest middle after) :
      Runs step (⟨call, false⟩ :: rest) before after
  | finish {call : Call} {rest : List Access} {before after : σ}
      (others : Runs step rest before after) : Runs step (⟨call, true⟩ :: rest) before after
  | again {call : Call} {rest : List Access} {before middle after : σ}
      (first : step call before middle) (others : Runs step (⟨call, true⟩ :: rest) middle after) :
      Runs step (⟨call, true⟩ :: rest) before after

section Performing

variable {ε σ α β : Type} {step : Call → σ → σ → Prop} {accesses more : List Access}

theorem Runs.append {before middle after : σ} (first : Runs step accesses before middle)
    (second : Runs step more middle after) : Runs step (accesses ++ more) before after := by
  induction first with
  | done => exact second
  | once first _ ih => exact .once first (ih second)
  | finish _ ih => exact .finish (ih second)
  | again first _ ih => exact .again first (ih second)

/-- Where the action succeeds, it has made the calls. -/
def Performs (step : Call → σ → σ → Prop) (action : ExceptT ε (StateT σ (Except Fault)) α)
    (accesses : List Access) : Prop :=
  ∀ ⦃before a after⦄, action.run before = .ok (.ok a, after) → Runs step accesses before after

theorem performs_pure (a : α) :
    Performs step (pure a : ExceptT ε (StateT σ (Except Fault)) α) [] := by
  rintro before b after ⟨⟩
  exact .done

theorem Performs.bind {action : ExceptT ε (StateT σ (Except Fault)) α}
    {next : α → ExceptT ε (StateT σ (Except Fault)) β} (first : Performs step action accesses)
    (second : ∀ a, Performs step (next a) more) :
    Performs step (action >>= next) (accesses ++ more) := by
  intro before b after run
  obtain ⟨a, middle, ran, run⟩ := run_bind_eq_ok.mp run
  exact (first ran).append (second a run)

/-- A step that calls nothing may come first. -/
theorem Performs.after {action : ExceptT ε (StateT σ (Except Fault)) α}
    {next : α → ExceptT ε (StateT σ (Except Fault)) β} (first : Performs step action [])
    (second : ∀ a, Performs step (next a) accesses) : Performs step (action >>= next) accesses :=
  first.bind second

/-- A step that calls nothing may follow. -/
theorem Performs.before {action : ExceptT ε (StateT σ (Except Fault)) α}
    {next : α → ExceptT ε (StateT σ (Except Fault)) β} (first : Performs step action accesses)
    (second : ∀ a, Performs step (next a) []) : Performs step (action >>= next) accesses := by
  rw [← List.append_nil accesses]
  exact first.bind second

theorem Performs.map {action : ExceptT ε (StateT σ (Except Fault)) α} (f : α → β)
    (first : Performs step action accesses) : Performs step (f <$> action) accesses := by
  rw [map_eq_pure_bind]
  exact first.before fun a => performs_pure (f a)

theorem Runs.single {call : Call} {before after : σ} (runs : Runs step [⟨call, false⟩] before after) :
    step call before after := by
  cases runs with
  | once first others =>
    cases others
    exact first

/-- The call for each element of an array. -/
theorem performs_forM {items : List α} {call : Call}
    {action : α → ExceptT ε (StateT σ (Except Fault)) Unit}
    (each : ∀ item, Performs step (action item) [⟨call, false⟩]) :
    Performs step (items.forM action) [⟨call, true⟩] := by
  induction items with
  | nil =>
    rintro before b after ⟨⟩
    exact .finish .done
  | cons item rest ih =>
    intro before b after run
    obtain ⟨_, middle, ran, run⟩ := run_bind_eq_ok.mp run
    exact .again (each item ran).single (ih run)

theorem performs_forM_flatMap {items : List α} {accesses : α → List Access}
    {action : α → ExceptT ε (StateT σ (Except Fault)) Unit}
    (each : ∀ item ∈ items, Performs step (action item) (accesses item)) :
    Performs step (items.forM action) (items.flatMap accesses) := by
  induction items with
  | nil => exact performs_pure ()
  | cons item rest ih =>
    rw [List.flatMap_cons]
    exact (each item (.head _)).bind fun _ => ih fun other member => each other (.tail _ member)

theorem performs_foldlM_flatMap {items : List α} {accesses : α → List Access}
    {action : β → α → ExceptT ε (StateT σ (Except Fault)) β}
    (each : ∀ item ∈ items, ∀ b, Performs step (action b item) (accesses item)) (start : β) :
    Performs step (items.foldlM action start) (items.flatMap accesses) := by
  induction items generalizing start with
  | nil => exact performs_pure start
  | cons item rest ih =>
    rw [List.foldlM_cons, List.flatMap_cons]
    exact (each item (.head _) start).bind (ih fun other member => each other (.tail _ member))

theorem performs_mapM {items : List α} {action : α → ExceptT ε (StateT σ (Except Fault)) β}
    (each : ∀ item, Performs step (action item) []) : Performs step (items.mapM action) [] := by
  induction items with
  | nil => exact performs_pure []
  | cons item rest ih =>
    rw [List.mapM_cons]
    exact (each item).after fun b => ih.after fun bs => performs_pure (b :: bs)

/-- A result that is known beforehand, or a fault. -/
theorem performs_checked {result : Except Fault α}
    {next : α → ExceptT ε (StateT σ (Except Fault)) β}
    (each : ∀ a, result = .ok a → Performs step (next a) accesses) :
    Performs step (ExceptT.mk (fun state => result.map fun a => (.ok a, state)) >>= next)
      accesses := by
  intro before b after run
  obtain ⟨a, middle, checked, run⟩ := run_bind_eq_ok.mp run
  cases result with
  | error fault => cases checked
  | ok c =>
    cases checked
    exact each _ rfl run

end Performing

namespace Encode

variable {α β : Type} {step : Call → Writer → Writer → Prop} {accesses : List Access}

theorem performs_check {result : Except Fault α} {next : α → Encode β}
    (each : ∀ a, result = .ok a → Performs step (next a) accesses) :
    Performs step (check result >>= next) accesses := performs_checked each

theorem performs_fault (fault : Fault) :
    Performs step (check (.error fault) : Encode α) accesses := by
  rintro before a after ⟨⟩

theorem performs_throw (e : EncodeError) : Performs step (throw e : Encode α) accesses := by
  rintro before a after ⟨⟩

end Encode

namespace Codec

open Format

inductive WrittenBy (encoders : String → Option Encoder) : Call → Encode Unit → Prop
  | unsigned {width n : Nat} :
      WrittenBy encoders (.integer width false) (Encode.write (Writer.unsigned (width / 8) n))
  | signed {width : Nat} {n : Int} :
      WrittenBy encoders (.integer width true) (Encode.write (Writer.signed (width / 8) n))
  | rational {value : Rational} :
      WrittenBy encoders .rational (Encode.write (Writer.rational value))
  | array {bytes : Bytes} : WrittenBy encoders .array (Encode.write (Writer.put bytes))
  | slice {bytes : Bytes} : WrittenBy encoders .slice (Encode.write (Writer.put bytes))
  | text {capacity : Nat} {text : FixedText capacity} :
      WrittenBy encoders .text (Encode.write (Writer.fixedText text))
  | gap {size : Nat} : WrittenBy encoders .gap (Encode.write (Writer.zeros size))
  | parity {code : LdpcCode} :
      WrittenBy encoders (.parity code) (Encode.write (Writer.parity code))
  | payload : WrittenBy encoders .payload (pure ())
  | nested {typeId : String} {encoder : Encoder} {value : Value}
      (known : encoders typeId = some encoder) : WrittenBy encoders (.nested typeId) (encoder value)

def Writes (encoders : String → Option Encoder) (call : Call) (before after : Writer) : Prop :=
  ∃ action, WrittenBy encoders call action ∧ action.run before = .ok (.ok (), after)

variable {model : Model} {window : Nat} {encoders : String → Option Encoder} {s : Struct}
  {record : Record} {field : Field} {value : Value} {call : Call} {action : Encode Unit}
  {segment : Segment} {segments : List Segment}

theorem WrittenBy.performs (written : WrittenBy encoders call action) :
    Performs (Writes encoders) action [⟨call, false⟩] :=
  fun _ _ _ run => .once ⟨action, written, run⟩ .done

theorem checkRange_performs (n : Nat) : Performs (Writes encoders) (checkRange s field n) [] := by
  unfold checkRange
  dsimp only
  split
  · exact Encode.performs_throw _
  · exact performs_pure ()

theorem packedValue_performs : Performs (Writes encoders) (packedValue s record field) [] := by
  unfold packedValue
  split
  · exact performs_pure _
  · refine Encode.performs_check fun value _ => ?_
    split
    · split
      · exact performs_pure _
      · exact (checkRange_performs _).after fun _ => performs_pure _
    · exact (checkRange_performs _).after fun _ => performs_pure _
    · exact Encode.performs_fault _

theorem encodeChunk_performs (shared : Chunk Field) :
    Performs (Writes encoders) (encodeChunk s record shared)
      [⟨.integer shared.width false, false⟩] := by
  refine (performs_mapM fun packed => ?_).after fun terms => WrittenBy.unsigned.performs
  exact packedValue_performs.after fun _ => performs_pure _

theorem encodeElement_performs (value : Value) :
    Performs (Writes encoders) (encodeElement encoders s field value)
      [⟨field.elementCall, false⟩] := by
  unfold encodeElement Field.elementCall
  dsimp only
  split
  · next shape => rw [shape]; exact WrittenBy.unsigned.performs
  · next shape => rw [shape]; exact WrittenBy.signed.performs
  · next shape => rw [shape]; exact WrittenBy.rational.performs
  · next shape =>
    rw [shape]
    split
    · next encoder known => exact (WrittenBy.nested known).performs
    · exact Encode.performs_fault _
  · next shape =>
    rw [shape]
    exact (checkRange_performs _).after fun _ => WrittenBy.unsigned.performs
  · exact Encode.performs_fault _

theorem encodeElements_performs (typed : fieldTyped model field value = true) :
    Performs (Writes encoders) (encodeElements encoders s field value) [field.elementsAccess] := by
  unfold fieldTyped at typed
  unfold encodeElements Field.elementsAccess
  cases repetition : field.repetition with
  | none => exact encodeElement_performs value
  | constant count =>
    simp only [repetition, Bool.and_eq_true] at typed
    rcases arrayTyped_cases typed.1 with ⟨buffer, rfl, buffered⟩ | ⟨elements, rfl, plain, -⟩
    · simp only [buffered, if_true]
      exact WrittenBy.array.performs
    · simp only [plain]
      exact performs_forM encodeElement_performs
  | fieldRef index =>
    simp only [repetition] at typed
    rcases arrayTyped_cases typed with ⟨buffer, rfl, buffered⟩ | ⟨elements, rfl, plain, -⟩
    · simp only [buffered, if_true]
      exact WrittenBy.slice.performs
    · simp only [plain]
      exact performs_forM encodeElement_performs

theorem encodeStored_performs (stored : field.isStored = true)
    (typed : fieldTyped model field value = true) :
    Performs (Writes encoders) (encodeStored encoders s field value) [field.access] := by
  have free := Field.fixed_of_stored stored
  unfold encodeStored Field.access
  dsimp only
  split
  · next shape =>
    simp only [shape, free, Option.isSome_none, Bool.false_or]
    split
    · next sequence => rw [if_pos sequence]; exact WrittenBy.unsigned.performs
    · exact Encode.performs_fault _
    · next plain => rw [if_neg (by simp [plain])]; exact encodeElements_performs typed
  · next shape => rw [shape]; exact encodeElements_performs typed
  · next shape => rw [shape]; exact encodeElements_performs typed
  · next shape => rw [shape]; exact encodeElements_performs typed
  · next shape => rw [shape]; exact WrittenBy.array.performs
  · next shape => rw [shape]; exact WrittenBy.text.performs
  · next shape => rw [shape]; exact WrittenBy.unsigned.performs
  · exact Encode.performs_fault _

theorem checkCount_performs : Performs (Writes encoders) (checkCount s record field value) [] := by
  unfold checkCount
  split
  · refine Encode.performs_check fun count _ => Encode.performs_check fun expected _ => ?_
    split
    · exact Encode.performs_throw _
    · exact performs_pure ()
  · exact performs_pure ()

theorem encodeImplied_performs :
    Performs (Writes encoders) (encodeImplied s record field) [field.access] := by
  unfold encodeImplied Field.access
  split
  · next shape =>
    rw [shape]
    split
    · exact Encode.performs_check fun count _ => Encode.performs_check fun size _ =>
        WrittenBy.gap.performs
    · exact Encode.performs_check fun bits _ => WrittenBy.gap.performs
  · next shape => rw [shape]; exact WrittenBy.parity.performs
  · next shape => rw [shape]; exact WrittenBy.payload.performs
  · next shape fixed => rw [shape]; exact WrittenBy.unsigned.performs
  · next shape fixed =>
    simp only [shape, fixed, Option.isSome_some, Bool.true_or, if_true]
    exact WrittenBy.unsigned.performs
  · exact Encode.performs_fault _

theorem encodeAligned_performs (typed : field.isStored = true →
      (record.lookup field.id).any (fieldTyped model field) = true) :
    Performs (Writes encoders) (encodeAligned encoders s record field) [field.access] := by
  unfold encodeAligned
  split
  · next stored =>
    refine Encode.performs_check fun value found => ?_
    have right := typed stored
    rw [Record.get_eq_ok.mp found, Option.any_some] at right
    exact checkCount_performs.after fun _ => encodeStored_performs stored right
  · exact encodeImplied_performs

/-- The encoder of a structure makes the calls of its layout. -/
theorem encodeStruct_performs (typed : recordTyped model s record = true)
    (laid : layout window s = .ok segments) :
    Performs (Writes encoders) (encodeStruct window encoders s (.record record))
      (segments.map Segment.access) := by
  simp only [recordTyped, Bool.and_eq_true, List.all_eq_true, Bool.or_eq_true,
    Bool.not_eq_true'] at typed
  refine Encode.performs_check fun found known => ?_
  obtain rfl : segments = found := Except.ok.inj (laid.symm.trans known)
  rw [List.map_eq_flatMap]
  refine performs_forM_flatMap fun segment listed => ?_
  cases segment with
  | chunk shared => exact encodeChunk_performs shared
  | aligned field =>
    have member : field ∈ s.fields := by
      rw [← (layout_fields laid).1]
      exact List.mem_flatMap.mpr ⟨_, listed, .head _⟩
    have right (stored : field.isStored = true) :
        (record.lookup field.id).any (fieldTyped model field) = true :=
      (typed.2 field member).resolve_left (by simp [stored])
    exact encodeAligned_performs right

end Codec

namespace Decode

variable {α β : Type} {step : Call → Reader → Reader → Prop} {accesses : List Access} {call : Call}
  {element : Decode α}

theorem performs_check {result : Except Fault α} {next : α → Decode β}
    (each : ∀ a, result = .ok a → Performs step (next a) accesses) :
    Performs step (check result >>= next) accesses := performs_checked each

theorem performs_fault (fault : Fault) :
    Performs step (check (.error fault) : Decode α) accesses := by
  rintro before a after ⟨⟩

theorem performs_remaining : Performs step remaining [] := by
  rintro before a after ⟨⟩
  exact .done

theorem performs_times (each : Performs step element [⟨call, false⟩]) (count : Nat) :
    Performs step (times element count) [⟨call, true⟩] := by
  induction count with
  | zero =>
    rintro before a after ⟨⟩
    exact .finish .done
  | succ count ih =>
    intro before values after run
    obtain ⟨first, middle, ran, run⟩ := run_bind_eq_ok.mp run
    exact .again (each ran).single (ih.before (fun _ => performs_pure _) run)

theorem performs_upTo (each : Performs step element [⟨call, false⟩]) (count : Nat) :
    Performs step (upTo element count) [⟨call, true⟩] := by
  induction count with
  | zero =>
    rintro before a after ⟨⟩
    exact .finish .done
  | succ count ih =>
    refine performs_remaining.after fun left => ?_
    intro before values after run
    split at run
    · cases run
      exact .finish .done
    · obtain ⟨first, middle, ran, run⟩ := run_bind_eq_ok.mp run
      exact .again (each ran).single (ih.before (fun _ => performs_pure _) run)

end Decode

namespace Codec

inductive ReadBy (decoders : String → Option Decoder) : Call → {α : Type} → Decode α → Prop
  | unsigned {width : Nat} :
      ReadBy decoders (.integer width false) (Decode.read (Reader.unsigned (width / 8)))
  | signed {width : Nat} :
      ReadBy decoders (.integer width true) (Decode.read (Reader.signed (width / 8)))
  | rational : ReadBy decoders .rational (Decode.read Reader.rational)
  | array {size : Nat} : ReadBy decoders .array (Decode.read (Reader.array size))
  | slice {size : Nat} : ReadBy decoders .slice (Decode.read (Reader.slice size))
  | text {capacity : Nat} : ReadBy decoders .text (Decode.read (Reader.fixedText capacity))
  | gap {size : Nat} : ReadBy decoders .gap (Decode.read (Reader.skip size))
  | parity {code : LdpcCode} :
      ReadBy decoders (.parity code) (Decode.read (Reader.skip (code.parityBits / 8)))
  | payload {size : Nat} : ReadBy decoders .payload (Decode.read (Reader.slice size))
  | nested {typeId : String} {decoder : Decoder} (known : decoders typeId = some decoder) :
      ReadBy decoders (.nested typeId) decoder

def Reads (decoders : String → Option Decoder) (call : Call) (before after : Reader) : Prop :=
  ∃ (α : Type) (action : Decode α) (a : α), ReadBy decoders call action ∧
    action.run before = .ok (.ok a, after)

variable {model : Model} {window : Nat} {decoders : String → Option Decoder} {s : Struct}
  {record : Record} {field : Field} {call : Call} {parsed : Parsed} {segments : List Segment}

theorem ReadBy.performs {α : Type} {action : Decode α} (read : ReadBy decoders call action) :
    Performs (Reads decoders) action [⟨call, false⟩] :=
  fun _ a _ run => .once ⟨α, action, a, read, run⟩ .done

theorem ReadBy.performs_map {α β : Type} {action : Decode α} (f : α → β)
    (read : ReadBy decoders call action) :
    Performs (Reads decoders) (action >>= fun a => pure (f a)) [⟨call, false⟩] :=
  read.performs.before fun _ => performs_pure _

theorem checkFixed_performs (actual expected : Nat) :
    Performs (Reads decoders) (checkFixed s field actual expected) [] := by
  unfold checkFixed
  split
  · exact performs_pure ()
  · rintro before a after ⟨⟩

theorem decodePacked_performs (word : Nat) (packed : Packed Field) :
    Performs (Reads decoders) (decodePacked model s word parsed packed) [] := by
  unfold decodePacked
  dsimp only
  split
  · exact (checkFixed_performs _ _).after fun _ => performs_pure _
  · exact Decode.performs_check fun _ _ => performs_pure _
  · exact performs_pure _

theorem decodeChunk_performs (shared : Chunk Field) :
    Performs (Reads decoders) (decodeChunk model s parsed shared)
      [⟨.integer shared.width false, false⟩] := by
  refine ReadBy.unsigned.performs.before fun word => ?_
  have quiet : shared.fields.flatMap (fun _ => ([] : List Access)) = [] := by simp
  rw [← quiet]
  exact performs_foldlM_flatMap (fun packed _ parsed => decodePacked_performs word packed) parsed

theorem decodeElement_performs :
    Performs (Reads decoders) (decodeElement model decoders field)
      [⟨field.elementCall, false⟩] := by
  unfold decodeElement Field.elementCall
  dsimp only
  split
  · next shape => rw [shape]; exact ReadBy.signed.performs_map _
  · next shape => rw [shape]; exact ReadBy.unsigned.performs_map _
  · next shape => rw [shape]; exact ReadBy.rational.performs_map _
  · next shape =>
    rw [shape]
    split
    · next decoder known => exact (ReadBy.nested known).performs.map _
    · exact Decode.performs_fault _
  · next shape =>
    rw [shape]
    exact Decode.performs_check fun e _ => ReadBy.unsigned.performs_map _
  · exact Decode.performs_fault _

theorem decodeElements_performs :
    Performs (Reads decoders) (decodeElements model decoders s record field)
      [field.elementsAccess] := by
  unfold decodeElements Field.elementsAccess
  dsimp only
  cases repetition : field.repetition with
  | none => exact decodeElement_performs
  | constant count =>
    cases buffered : field.isByteBuffer with
    | true => exact ReadBy.array.performs_map _
    | false =>
      exact (Decode.performs_times decodeElement_performs count).before fun _ => performs_pure _
  | fieldRef index =>
    refine Decode.performs_check fun count _ => ?_
    cases buffered : field.isByteBuffer with
    | true => exact ReadBy.slice.performs_map _
    | false =>
      simp only [Bool.false_eq_true, if_false]
      split
      · exact (Decode.performs_upTo decodeElement_performs count).before fun _ => performs_pure _
      · exact Decode.performs_remaining.after fun left =>
          (Decode.performs_times decodeElement_performs _).before fun _ => performs_pure _

theorem decodeStored_performs (stored : field.isStored = true) :
    Performs (Reads decoders) (decodeStored model decoders s record field) [field.access] := by
  have free := Field.fixed_of_stored stored
  unfold decodeStored Field.access
  dsimp only
  split
  · next shape =>
    simp only [shape, free, Option.isSome_none, Bool.false_or]
    split
    · exact ReadBy.unsigned.performs_map _
    · exact decodeElements_performs
  · next shape => rw [shape]; exact decodeElements_performs
  · next shape => rw [shape]; exact decodeElements_performs
  · next shape => rw [shape]; exact decodeElements_performs
  · next shape => rw [shape]; exact ReadBy.array.performs_map _
  · next shape => rw [shape]; exact ReadBy.text.performs_map _
  · next shape => rw [shape]; exact ReadBy.unsigned.performs_map _
  · exact Decode.performs_fault _

theorem decodePayload_performs :
    Performs (Reads decoders) (decodePayload s record field) [⟨.payload, false⟩] := by
  unfold decodePayload
  dsimp only
  split
  · exact Decode.performs_remaining.after fun size => ReadBy.payload.performs
  · exact Decode.performs_check fun bits _ => ReadBy.payload.performs
  · exact Decode.performs_check fun count _ => Decode.performs_check fun size _ =>
      ReadBy.payload.performs

theorem decodeImplied_performs :
    Performs (Reads decoders) (decodeImplied s parsed field) [field.access] := by
  unfold decodeImplied Field.access
  split
  · next shape =>
    rw [shape]
    split
    · exact Decode.performs_check fun count _ => Decode.performs_check fun size _ =>
        ReadBy.gap.performs_map _
    · exact Decode.performs_check fun bits _ => ReadBy.gap.performs_map _
  · next shape => rw [shape]; exact ReadBy.parity.performs_map _
  · next shape => rw [shape]; exact decodePayload_performs.before fun _ => performs_pure _
  · next shape fixed =>
    rw [shape]
    exact ReadBy.unsigned.performs.before fun _ =>
      (checkFixed_performs _ _).after fun _ => performs_pure _
  · next shape fixed =>
    simp only [shape, fixed, Option.isSome_some, Bool.true_or, if_true]
    exact ReadBy.unsigned.performs.before fun _ =>
      (checkFixed_performs _ _).after fun _ => performs_pure _
  · exact Decode.performs_fault _

/-- The decoder of a structure makes the calls of its layout. -/
theorem decodeStruct_performs (laid : layout window s = .ok segments) :
    Performs (Reads decoders) (decodeStruct model window decoders s)
      (segments.map Segment.access) := by
  unfold decodeStruct
  refine Decode.performs_check fun found known => ?_
  obtain rfl : segments = found := Except.ok.inj (laid.symm.trans known)
  rw [List.map_eq_flatMap]
  refine (performs_foldlM_flatMap (fun segment listed parsed => ?_) _).before fun parsed =>
    Decode.performs_check fun fields _ => performs_pure _
  cases segment with
  | chunk shared => exact decodeChunk_performs shared
  | aligned field =>
    simp only [decodeSegment, Segment.access]
    split
    · next stored => exact (decodeStored_performs stored).before fun _ => performs_pure _
    · exact decodeImplied_performs

end Codec

end PacketSpec
