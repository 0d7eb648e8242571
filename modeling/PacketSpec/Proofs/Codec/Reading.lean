import PacketSpec.Codec.Decode
import PacketSpec.Proofs.Size
import PacketSpec.Proofs.Wire.Bits

/-! What a reading step gives for bytes that have certain bits, whatever follows them. -/
namespace PacketSpec

open Wire

namespace Decode

variable {α β : Type}

theorem read_run (action : StateM Reader α) (reader : Reader) :
    (read action).run reader = .ok (.ok (action reader).1, (action reader).2) := rfl

theorem pure_run (a : α) (reader : Reader) :
    (pure a : Decode α).run reader = .ok (.ok a, reader) := rfl

theorem check_run (a : α) (reader : Reader) :
    (check (.ok a)).run reader = .ok (.ok a, reader) := rfl

theorem run_return_eq_ok {step : Decode α} {f : α → β} {reader after : Reader} {b : β} :
    (do return f (← step) : Decode β).run reader = .ok (.ok b, after) ↔ ∃ a,
      step.run reader = .ok (.ok a, after) ∧ f a = b := by
  rw [run_bind_eq_ok]
  constructor
  · rintro ⟨a, middle, run, finish⟩
    cases finish
    exact ⟨a, run, rfl⟩
  · rintro ⟨a, run, rfl⟩
    exact ⟨a, after, run, rfl⟩

theorem check_run_eq_ok {result : Except Fault α} {reader after : Reader} {a : α} :
    (check result).run reader = .ok (.ok a, after) ↔ result = .ok a ∧ after = reader := by
  cases result with
  | error fault =>
    constructor
    · intro run
      cases run
    · rintro ⟨same, -⟩
      cases same
  | ok b =>
    constructor
    · intro run
      cases run
      exact ⟨rfl, rfl⟩
    · rintro ⟨same, rfl⟩
      cases same
      rfl

/-- The step reads all bits and gives the result, whatever stands before and after them. -/
structure Parses (step : Decode α) (bits : List Bool) (result : α) : Prop where
  whole : bits.length % 8 = 0
  reads : ∀ front bytes rest, bitsOfBytes bytes = bits →
    step.run ⟨front ++ bytes ++ rest, front.length⟩ =
      .ok (.ok result, ⟨front ++ bytes ++ rest, (front ++ bytes).length⟩)

theorem parses_pure (a : α) : Parses (pure a) [] a := by
  refine ⟨rfl, fun front bytes rest same => ?_⟩
  obtain rfl : bytes = [] := bitsOfBytes_injective same
  rw [List.append_nil]
  rfl

theorem parses_check {result : Except Fault α} {a : α} (known : result = .ok a) :
    Parses (check result) [] a := by
  rw [known]
  exact parses_pure a

theorem Parses.bind {step : Decode α} {next : α → Decode β} {first second : List Bool} {a : α}
    {b : β} (parses : Parses step first a) (continues : Parses (next a) second b) :
    Parses (step >>= next) (first ++ second) b := by
  refine ⟨?_, fun front bytes rest same => ?_⟩
  · rw [List.length_append]
    have := parses.whole
    have := continues.whole
    omega
  · obtain ⟨bytes, more, rfl, same, others⟩ := exists_append_of_bitsOfBytes_eq parses.whole same
    have one := parses.reads front bytes (more ++ rest) same
    have two := continues.reads (front ++ bytes) more rest others
    rw [run_bind]
    simp only [List.append_assoc] at one two ⊢
    rw [one]
    exact two

/-- A step that reads nothing may stand in front. -/
theorem Parses.after {step : Decode α} {next : α → Decode β} {bits : List Bool} {a : α}
    {b : β} (first : Parses step [] a) (continues : Parses (next a) bits b) :
    Parses (step >>= next) bits b := first.bind continues

theorem Parses.return {step : Decode α} {bits : List Bool} {a : α} (f : α → β)
    (parses : Parses step bits a) : Parses (do return f (← step)) bits (f a) := by
  rw [← List.append_nil bits]
  exact parses.bind (parses_pure (f a))

theorem Parses.map {step : Decode α} {bits : List Bool} {a : α} (f : α → β)
    (parses : Parses step bits a) : Parses (f <$> step) bits (f a) := by
  rw [← bind_pure_comp]
  exact parses.return f

/-- What the step does may depend on how much input there is, as long as its own part counts. -/
theorem parses_remaining {next : Nat → Decode β} {bits : List Bool} {b : β}
    (continues : ∀ available, bits.length ≤ 8 * available → Parses (next available) bits b) :
    Parses (remaining >>= next) bits b := by
  refine ⟨(continues bits.length (by omega)).whole, fun front bytes rest same => ?_⟩
  have enough : bits.length ≤ 8 * ((front ++ bytes ++ rest).length - front.length) := by
    rw [← same, length_bitsOfBytes]
    simp only [List.length_append]
    omega
  exact (continues _ enough).reads front bytes rest same

theorem parses_read {action : StateM Reader α} {bits : List Bool} {a : α}
    (whole : bits.length % 8 = 0)
    (runs : ∀ front bytes rest, bitsOfBytes bytes = bits →
      action ⟨front ++ bytes ++ rest, front.length⟩ =
        (a, ⟨front ++ bytes ++ rest, (front ++ bytes).length⟩)) :
    Parses (read action) bits a := by
  refine ⟨whole, fun front bytes rest same => ?_⟩
  rw [read_run, runs front bytes rest same]

theorem take?_run {size : Nat} (front bytes rest : Bytes) (sized : bytes.length = size) :
    Reader.take? size ⟨front ++ bytes ++ rest, front.length⟩ =
      (some bytes, ⟨front ++ bytes ++ rest, (front ++ bytes).length⟩) := by
  subst sized
  simp [Reader.take?, Reader.remaining]

theorem slice_run {size : Nat} (front bytes rest : Bytes) (sized : bytes.length = size) :
    Reader.slice size ⟨front ++ bytes ++ rest, front.length⟩ =
      (bytes, ⟨front ++ bytes ++ rest, (front ++ bytes).length⟩) := by
  subst sized
  simp [Reader.slice, Reader.remaining]

theorem slice_rest (size : Nat) (before rest : Bytes) :
    Reader.slice size ⟨before ++ rest, before.length⟩ =
      (rest.take size, ⟨before ++ rest, before.length + (rest.take size).length⟩) := by
  simp only [Reader.slice, Reader.remaining, List.length_append, Nat.add_sub_cancel_left,
    List.drop_left, List.length_take]
  have clamped : rest.take (min size rest.length) = rest.take size :=
    List.take_eq_take_iff.mpr (by omega)
  rw [clamped]

theorem skip_run {size : Nat} (front bytes rest : Bytes) (sized : bytes.length = size) :
    Reader.skip size ⟨front ++ bytes ++ rest, front.length⟩ =
      ((), ⟨front ++ bytes ++ rest, (front ++ bytes).length⟩) := by
  subst sized
  simp [Reader.skip, Reader.remaining]

/-- The number of bytes that bits fill. -/
theorem length_of_bits {bytes : Bytes} {bits : List Bool} (same : bitsOfBytes bytes = bits) :
    bytes.length = bits.length / 8 := by
  rw [← same, length_bitsOfBytes, Nat.mul_div_cancel_left _ (by decide)]

theorem ofBigEndian_of_bits {bytes : Bytes} {width n : Nat} (whole : 8 * (width / 8) = width)
    (same : bitsOfBytes bytes = bitsOfNat width n) : ofBigEndian bytes = n % 1 <<< width := by
  have sized := length_of_bits same
  rw [length_bitsOfNat] at sized
  have bound := ofBigEndian_lt bytes
  have bits := bitsOfNat_ofBigEndian bytes
  rw [sized, whole] at bound bits
  rw [← mod_eq_of_bitsOfNat_eq (bits.trans same), Nat.mod_eq_of_lt bound]

theorem unsigned_run (size : Nat) (reader : Reader) :
    Reader.unsigned size reader = (((Reader.take? size reader).1.map ofBigEndian).getD 0,
      (Reader.take? size reader).2) := rfl

theorem parses_unsigned {width : Nat} (whole : 8 * (width / 8) = width) (n : Nat) :
    Parses (read (Reader.unsigned (width / 8))) (bitsOfNat width n) (n % 1 <<< width) := by
  refine parses_read (by rw [length_bitsOfNat]; omega) fun front bytes rest same => ?_
  have sized := length_of_bits same
  rw [length_bitsOfNat] at sized
  rw [unsigned_run, take?_run front bytes rest sized]
  simp [ofBigEndian_of_bits whole same]

theorem parses_signed {width : Nat} (whole : 8 * (width / 8) = width) (positive : 0 < width)
    {n : Int} (fits : FitsSigned width n) :
    Parses (read (Reader.signed (width / 8))) (bitsOfNat width (ofSigned width n)) n := by
  refine parses_read (by rw [length_bitsOfNat]; omega) fun front bytes rest same => ?_
  have sized := length_of_bits same
  rw [length_bitsOfNat] at sized
  show (toSigned (8 * (width / 8)) (Reader.unsigned (width / 8) _).1,
    (Reader.unsigned (width / 8) _).2) = _
  rw [unsigned_run, take?_run front bytes rest sized]
  simp only [Option.map_some, Option.getD_some]
  rw [ofBigEndian_of_bits whole same, Nat.mod_eq_of_lt (ofSigned_lt width n), whole,
    toSigned_ofSigned positive fits]

theorem rational_run {reader after : Reader} {bytes : Bytes}
    (taken : Reader.take? 8 reader = (some bytes, after)) :
    Reader.rational reader =
      (⟨toSigned 32 (ofBigEndian (bytes.take 4)), toSigned 32 (ofBigEndian (bytes.drop 4))⟩,
        after) := by
  simp only [Reader.rational, bind, StateT.bind, taken]
  rfl

theorem parses_rational {value : Rational} (num : FitsSigned 32 value.num)
    (den : FitsSigned 32 value.den) :
    Parses (read Reader.rational)
      (bitsOfNat 32 (ofSigned 32 value.num) ++ bitsOfNat 32 (ofSigned 32 value.den)) value := by
  refine parses_read (by simp) fun front bytes rest same => ?_
  have sized := length_of_bits same
  rw [List.length_append, length_bitsOfNat, length_bitsOfNat] at sized
  obtain ⟨first, second, rfl, upper, lower⟩ :=
    exists_append_of_bitsOfBytes_eq (by rw [length_bitsOfNat]) same
  have half : first.length = 4 := by rw [length_of_bits upper, length_bitsOfNat]
  rw [rational_run (take?_run front (first ++ second) rest sized), List.take_left' half,
    List.drop_left' half, ofBigEndian_of_bits rfl upper, ofBigEndian_of_bits rfl lower,
    Nat.mod_eq_of_lt (ofSigned_lt 32 _), Nat.mod_eq_of_lt (ofSigned_lt 32 _),
    toSigned_ofSigned (by decide) num, toSigned_ofSigned (by decide) den]

theorem parses_array (bytes : Bytes) :
    Parses (read (Reader.array bytes.length)) (bitsOfBytes bytes) bytes := by
  refine parses_read (by rw [length_bitsOfBytes]; omega) fun front other rest same => ?_
  obtain rfl : other = bytes := bitsOfBytes_injective same
  show ((Reader.take? other.length _).1.getD _, (Reader.take? other.length _).2) = _
  rw [take?_run front other rest rfl]
  rfl

theorem raw_ofBytes {capacity : Nat} {bytes : Bytes} (sized : bytes.length = capacity) :
    (FixedText.ofBytes capacity bytes).raw = bytes := by
  subst sized
  simp [FixedText.ofBytes]

theorem ofBytes_raw {capacity : Nat} (text : FixedText capacity) :
    FixedText.ofBytes capacity text.raw = text := by
  have same := raw_ofBytes text.length_raw
  generalize FixedText.ofBytes capacity text.raw = other at same
  cases other
  cases text
  cases same
  rfl

theorem parses_fixedText {capacity : Nat} (text : FixedText capacity) :
    Parses (read (Reader.fixedText capacity)) (bitsOfBytes text.raw) text := by
  refine parses_read (by rw [length_bitsOfBytes]; omega) fun front bytes rest same => ?_
  obtain rfl : bytes = text.raw := bitsOfBytes_injective same
  show (((Reader.take? capacity _).1.map (FixedText.ofBytes capacity)).getD _,
    (Reader.take? capacity _).2) = _
  rw [take?_run front text.raw rest text.length_raw]
  simp [ofBytes_raw]

theorem parses_slice (bytes : Bytes) :
    Parses (read (Reader.slice bytes.length)) (bitsOfBytes bytes) bytes := by
  refine parses_read (by rw [length_bitsOfBytes]; omega) fun front other rest same => ?_
  obtain rfl : other = bytes := bitsOfBytes_injective same
  exact slice_run front other rest rfl

theorem parses_skip {bits : List Bool} {size : Nat} (sized : bits.length = 8 * size) :
    Parses (read (Reader.skip size)) bits () := by
  refine parses_read (by omega) fun front bytes rest same => ?_
  exact skip_run front bytes rest (by rw [length_of_bits same]; omega)

theorem parses_times {element : Decode α} {items : List β} {bits : β → List Bool} {result : β → α}
    (each : ∀ item ∈ items, Parses element (bits item) (result item)) :
    Parses (times element items.length) (items.flatMap bits) (items.map result) := by
  induction items with
  | nil => exact parses_pure []
  | cons item rest ih =>
    have others := ih fun other member => each other (.tail _ member)
    refine (each item (.head _)).bind ?_
    exact others.return (result item :: ·)

/-- A list that is read as long as there is input is read whole, since each element takes some. -/
theorem parses_upTo {element : Decode α} {items : List β} {bits : β → List Bool} {result : β → α}
    (each : ∀ item ∈ items, Parses element (bits item) (result item))
    (sized : ∀ item ∈ items, 0 < (bits item).length) :
    Parses (upTo element items.length) (items.flatMap bits) (items.map result) := by
  induction items with
  | nil => exact parses_pure []
  | cons item rest ih =>
    have others := ih (fun other member => each other (.tail _ member))
      fun other member => sized other (.tail _ member)
    refine parses_remaining fun available enough => ?_
    have positive := sized item (.head _)
    rw [List.flatMap_cons, List.length_append] at enough
    rw [if_neg (by simp; omega)]
    refine (each item (.head _)).bind ?_
    exact others.return (result item :: ·)

/-- Steps that read nothing. -/
theorem parses_foldlM {items : List α} {step : β → α → Decode β} {next : β → α → β}
    (each : ∀ item ∈ items, ∀ b, Parses (step b item) [] (next b item)) (start : β) :
    Parses (items.foldlM step start) [] (items.foldl next start) := by
  induction items generalizing start with
  | nil => exact parses_pure start
  | cons item rest ih =>
    rw [List.foldlM_cons]
    exact (each item (.head _) start).after (ih (fun other member => each other (.tail _ member)) _)

end Decode

section Runs

variable {model : Model} {window : Nat} {id : String} {decoder : Codec.Decoder} {buffer : Bytes}
  {reader after : Reader} {result : Except DecodeError (Value × Option Bytes)}
  (known : model.decoder window id = .ok decoder)

include known

theorem Model.decode_of_run (run : decoder.run ⟨buffer, 0⟩ = .ok (result, after)) :
    model.decode window id buffer =
      .ok (result.map fun read => ⟨read.1, read.2, after.offset⟩) := by
  simp only [Model.decode, known, bind, Except.bind, run]
  rfl

theorem Model.decodeFrom_of_run (run : decoder.run reader = .ok (result, after)) :
    (model.decodeFrom window id).run reader = .ok (result.map Prod.fst, after) := by
  simp only [Model.decodeFrom, run_bind, known, Decode.check_run]
  rw [← bind_pure_comp, run_bind, run]
  cases result <;> rfl

end Runs

end PacketSpec
