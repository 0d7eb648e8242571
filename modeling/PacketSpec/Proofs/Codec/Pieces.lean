import PacketSpec.Proofs.Codec.Reading
import PacketSpec.Proofs.Codec.Slicing

/-!
Reading piece after piece from a buffer that may be too short. A piece that does not lie whole
before the end is seen as zeros and leaves the cursor in place, so later pieces are seen further to
the front than they are declared.
-/
namespace PacketSpec

open Wire

/-- Bytes that are taken in one step: whole or not at all, or passed over as far as they go. -/
inductive Piece where
  | whole (size : Nat)
  | skipped (size : Nat)
  deriving DecidableEq, Repr

namespace Piece

def size : Piece → Nat
  | .whole size | .skipped size => size

def next (length cursor : Nat) : Piece → Nat
  | .whole size => if cursor + size ≤ length then cursor + size else cursor
  | .skipped size => min (cursor + size) length

def total : List Piece → Nat
  | [] => 0
  | piece :: rest => piece.size + total rest

def cursorAfter (length cursor : Nat) (pieces : List Piece) : Nat :=
  pieces.foldl (next length) cursor

def found (buffer : Bytes) (cursor : Nat) (piece : Piece) (offset width : Nat) : Nat :=
  if cursor + piece.size ≤ buffer.length then numberAt buffer (8 * cursor + offset) width else 0

variable {buffer : Bytes} {view : View} {declared cursor : Nat} {pieces front back : List Piece}

theorem total_append (front back : List Piece) :
    total (front ++ back) = total front + total back := by
  induction front with
  | nil => simp [total]
  | cons piece front ih => simp [total, ih, Nat.add_assoc]

theorem total_replicate (count : Nat) (pieces : List Piece) :
    total (List.replicate count pieces).flatten = count * total pieces := by
  induction count with
  | zero => simp [total]
  | succ count ih =>
    rw [List.replicate_succ, List.flatten_cons, total_append, ih, Nat.succ_mul, Nat.add_comm]

theorem cursorAfter_append (length : Nat) :
    cursorAfter length cursor (front ++ back) =
      cursorAfter length (cursorAfter length cursor front) back :=
  List.foldl_append

theorem next_le {length : Nat} (piece : Piece) (bounded : cursor ≤ length) :
    piece.next length cursor ≤ length := by
  cases piece <;> grind [next]

theorem cursorAfter_le {length : Nat} (pieces : List Piece) (bounded : cursor ≤ length) :
    cursorAfter length cursor pieces ≤ length := by
  induction pieces generalizing cursor with
  | nil => exact bounded
  | cons piece rest ih => exact ih (piece.next_le bounded)

theorem next_of_le {length : Nat} {piece : Piece} (fits : cursor + piece.size ≤ length) :
    piece.next length cursor = cursor + piece.size := by
  cases piece <;> grind [next, size]

theorem cursorAfter_of_le {length : Nat} (enough : cursor + total pieces ≤ length) :
    cursorAfter length cursor pieces = cursor + total pieces := by
  induction pieces generalizing cursor with
  | nil => rfl
  | cons piece rest ih =>
    rw [total] at enough
    have fits : cursor + piece.size ≤ length := by omega
    show cursorAfter length (piece.next length cursor) rest = _
    rw [next_of_le fits, ih (by omega), total, Nat.add_assoc]

end Piece

open Piece

/-- The view has the numbers that are found in the pieces. They are declared from the byte
`declared` on, and read from the byte `cursor` on. -/
def Shows (buffer : Bytes) (view : View) (declared cursor : Nat) (pieces : List Piece) : Prop :=
  ∀ before piece after, pieces = before ++ piece :: after → ∀ offset width,
    offset + width ≤ 8 * piece.size → view (8 * (declared + total before) + offset) width =
      piece.found buffer (cursorAfter buffer.length cursor before) offset width

namespace Shows

variable {buffer : Bytes} {view : View} {declared cursor size : Nat} {front back : List Piece}

theorem first (shows : Shows buffer view declared cursor (front ++ back)) :
    Shows buffer view declared cursor front := by
  intro before piece after split
  exact shows before piece (after ++ back) (by simp [split])

theorem second (shows : Shows buffer view declared cursor (front ++ back)) :
    Shows buffer view (declared + total front) (cursorAfter buffer.length cursor front) back := by
  intro before piece after split offset width inside
  have number := shows (front ++ before) piece after (by simp [split]) offset width inside
  rwa [total_append, cursorAfter_append, ← Nat.add_assoc] at number

theorem single {piece : Piece} (shows : Shows buffer view declared cursor [piece])
    {offset width : Nat} (inside : offset + width ≤ 8 * piece.size) :
    view (8 * declared + offset) width = piece.found buffer cursor offset width :=
  shows [] piece [] rfl offset width inside

theorem of_fits {piece : Piece} (shows : Shows buffer view declared cursor [piece])
    (fits : cursor + piece.size ≤ buffer.length) {offset width : Nat}
    (inside : offset + width ≤ 8 * piece.size) :
    view (8 * declared + offset) width = numberAt buffer (8 * cursor + offset) width := by
  rw [shows.single inside, found, if_pos fits]

theorem of_missing {piece : Piece} (shows : Shows buffer view declared cursor [piece])
    (missing : ¬cursor + piece.size ≤ buffer.length) {offset width : Nat}
    (inside : offset + width ≤ 8 * piece.size) : view (8 * declared + offset) width = 0 := by
  rw [shows.single inside, found, if_neg missing]

/-- What is found in a part of a piece is cut out of what is found in the whole of it. -/
theorem cut (shows : Shows buffer view declared cursor [.whole size]) {offset width : Nat}
    (inside : offset + width ≤ 8 * size) :
    view (8 * declared) (8 * size) >>> (8 * size - offset - width) % 1 <<< width =
      view (8 * declared + offset) width := by
  by_cases fits : cursor + size ≤ buffer.length
  · have word := @of_fits _ _ _ _ _ shows fits 0 (8 * size) (by rw [Piece.size]; omega)
    rw [Nat.add_zero, Nat.add_zero, numberAt_whole fits] at word
    have filled : offset + width + (8 * size - offset - width) = 8 * size := by omega
    rw [word, shows.of_fits fits inside, numberAt_word fits filled]
  · have word := @of_missing _ _ _ _ _ shows fits 0 (8 * size) (by rw [Piece.size]; omega)
    rw [Nat.add_zero] at word
    rw [word, shows.of_missing fits inside, Nat.zero_shiftRight, Nat.zero_mod]

end Shows

namespace Decode

variable {α β : Type} {buffer : Bytes} {view : View} {declared cursor : Nat}

/-- The step goes through the pieces. It finds the fixed fields and the result in what the view
shows of them, and fails at the first fixed field that does not hold its value. -/
def Follows (buffer : Bytes) (view : View) (declared cursor : Nat) (step : Decode α)
    (pieces : List Piece) (fixed : List FixedPlace) (result : α) : Prop :=
  cursor ≤ buffer.length → Shows buffer view declared cursor pieces →
    match fixed.findSome? (·.mismatch? view) with
    | some error => ∃ after, step.run ⟨buffer, cursor⟩ = .ok (.error error, after)
    | none => step.run ⟨buffer, cursor⟩ =
        .ok (.ok result, ⟨buffer, cursorAfter buffer.length cursor pieces⟩)

theorem follows_pure (a : α) : Follows buffer view declared cursor (pure a) [] [] a :=
  fun _ _ => rfl

theorem follows_check {result : Except Fault α} {a : α} (known : result = .ok a) :
    Follows buffer view declared cursor (check result) [] [] a := by
  rw [known]
  exact follows_pure a

theorem Follows.bind {step : Decode α} {next : α → Decode β} {first second : List Piece}
    {fixed others : List FixedPlace} {a : α} {b : β}
    (follows : Follows buffer view declared cursor step first fixed a)
    (continues : Follows buffer view (declared + total first)
      (cursorAfter buffer.length cursor first) (next a) second others b) :
    Follows buffer view declared cursor (step >>= next) (first ++ second) (fixed ++ others) b := by
  intro bounded shows
  have one := follows bounded shows.first
  have two := continues (cursorAfter_le first bounded) shows.second
  rw [List.findSome?_append]
  cases found : fixed.findSome? (·.mismatch? view) with
  | some error =>
    rw [found] at one
    obtain ⟨after, run⟩ := one
    exact ⟨after, by rw [run_bind, run]⟩
  | none =>
    rw [found] at one
    rw [Option.none_or, run_bind, one, cursorAfter_append]
    exact two

/-- A step that reads nothing may stand in front. -/
theorem Follows.after {step : Decode α} {next : α → Decode β} {pieces : List Piece}
    {fixed : List FixedPlace} {a : α} {b : β}
    (first : Follows buffer view declared cursor step [] [] a)
    (continues : Follows buffer view declared cursor (next a) pieces fixed b) :
    Follows buffer view declared cursor (step >>= next) pieces fixed b := first.bind continues

theorem Follows.return {step : Decode α} {pieces : List Piece} {fixed : List FixedPlace} {a : α}
    (f : α → β) (follows : Follows buffer view declared cursor step pieces fixed a) :
    Follows buffer view declared cursor (do return f (← step)) pieces fixed (f a) := by
  rw [← List.append_nil pieces, ← List.append_nil fixed]
  exact follows.bind (follows_pure (f a))

theorem Follows.map {step : Decode α} {pieces : List Piece} {fixed : List FixedPlace} {a : α}
    (f : α → β) (follows : Follows buffer view declared cursor step pieces fixed a) :
    Follows buffer view declared cursor (f <$> step) pieces fixed (f a) := by
  rw [← bind_pure_comp]
  exact follows.return f

theorem take?_at {size : Nat} (bounded : cursor ≤ buffer.length) :
    Reader.take? size ⟨buffer, cursor⟩ =
      (if cursor + size ≤ buffer.length then some ((buffer.drop cursor).take size) else none,
        ⟨buffer, (Piece.whole size).next buffer.length cursor⟩) := by
  have enough : size ≤ Reader.remaining ⟨buffer, cursor⟩ ↔ cursor + size ≤ buffer.length := by
    show size ≤ buffer.length - cursor ↔ _
    omega
  by_cases fits : cursor + size ≤ buffer.length <;> simp [Reader.take?, Piece.next, enough, fits]

/-- Reading what `convert` makes of a number of bytes. -/
theorem follows_whole {size : Nat} {action : StateM Reader α} (convert : Option Bytes → α)
    {result : α}
    (action_eq : ∀ reader, action reader =
      (convert (Reader.take? size reader).1, (Reader.take? size reader).2))
    (full : cursor + size ≤ buffer.length → Shows buffer view declared cursor [.whole size] →
      convert (some ((buffer.drop cursor).take size)) = result)
    (short : ¬cursor + size ≤ buffer.length → Shows buffer view declared cursor [.whole size] →
      convert none = result) :
    Follows buffer view declared cursor (read action) [.whole size] [] result := by
  intro bounded shows
  show (read action).run _ = _
  rw [read_run, action_eq, take?_at bounded]
  by_cases fits : cursor + size ≤ buffer.length
  · rw [if_pos fits, full fits shows]
    rfl
  · rw [if_neg fits, short fits shows]
    rfl

theorem follows_unsigned {width : Nat} (whole : 8 * (width / 8) = width) :
    Follows buffer view declared cursor (read (Reader.unsigned (width / 8)))
      [.whole (width / 8)] [] (view (8 * declared) width) := by
  refine follows_whole (fun bytes => (bytes.map ofBigEndian).getD 0) (unsigned_run _) ?_ ?_
  · intro fits shows
    have number := @Shows.of_fits _ _ _ _ _ shows fits 0 width (by rw [Piece.size]; omega)
    rw [Nat.add_zero, Nat.add_zero] at number
    rw [number, ← whole, numberAt_whole fits, whole]
    rfl
  · intro missing shows
    have number := @Shows.of_missing _ _ _ _ _ shows missing 0 width (by rw [Piece.size]; omega)
    exact number.symm

theorem follows_signed {width : Nat} (whole : 8 * (width / 8) = width) :
    Follows buffer view declared cursor (read (Reader.signed (width / 8)))
      [.whole (width / 8)] [] (toSigned width (view (8 * declared) width)) := by
  have signed : read (Reader.signed (width / 8)) =
      toSigned (8 * (width / 8)) <$> read (Reader.unsigned (width / 8)) := rfl
  have unsigned := @follows_unsigned buffer view declared cursor width whole
  rw [signed, whole]
  exact unsigned.map (toSigned width)

/-- The bytes of a piece as the view shows them. -/
theorem bytesIn_of_shows {size : Nat} (shows : Shows buffer view declared cursor [.whole size]) :
    Slicing.bytesIn view (8 * declared) size =
      if cursor + size ≤ buffer.length then (buffer.drop cursor).take size
      else List.replicate size 0 := by
  apply List.ext_getElem
  · split
    · simp [Slicing.bytesIn]
      omega
    · simp [Slicing.bytesIn]
  · intro index inside _
    rw [Slicing.bytesIn, List.length_map, List.length_range] at inside
    have byte : 8 * index + 8 ≤ 8 * (Piece.whole size).size := by
      rw [Piece.size]
      omega
    simp only [Slicing.bytesIn, List.getElem_map, List.getElem_range]
    by_cases fits : cursor + size ≤ buffer.length
    · have present : cursor + index < buffer.length := by omega
      have number := numberAt_byte present
      rw [Nat.mul_add] at number
      simp [shows.of_fits fits byte, number, fits]
    · simp [shows.of_missing fits byte, fits]

theorem follows_array (size : Nat) :
    Follows buffer view declared cursor (read (Reader.array size)) [.whole size] []
      (Slicing.bytesIn view (8 * declared) size) := by
  refine follows_whole (fun bytes => bytes.getD (List.replicate size 0)) (fun _ => rfl) ?_ ?_
  · intro fits shows
    rw [bytesIn_of_shows shows, if_pos fits]
    rfl
  · intro missing shows
    rw [bytesIn_of_shows shows, if_neg missing]
    rfl

theorem ofBytes_zeros (capacity : Nat) :
    FixedText.ofBytes capacity (List.replicate capacity 0) = .empty capacity :=
  ofBytes_raw (.empty capacity)

theorem follows_fixedText (capacity : Nat) :
    Follows buffer view declared cursor (read (Reader.fixedText capacity)) [.whole capacity] []
      (.ofBytes capacity (Slicing.bytesIn view (8 * declared) capacity)) := by
  refine follows_whole
    (fun bytes => (bytes.map (FixedText.ofBytes capacity)).getD (.empty capacity))
    (fun _ => rfl) ?_ ?_
  · intro fits shows
    rw [bytesIn_of_shows shows, if_pos fits]
    rfl
  · intro missing shows
    rw [bytesIn_of_shows shows, if_neg missing, ofBytes_zeros]
    rfl

theorem follows_rational :
    Follows buffer view declared cursor (read Reader.rational) [.whole 8] []
      ⟨toSigned 32 (view (8 * declared) 32), toSigned 32 (view (8 * declared + 32) 32)⟩ := by
  refine follows_whole
    (fun bytes => (bytes.map fun bytes => Rational.mk (toSigned 32 (ofBigEndian (bytes.take 4)))
      (toSigned 32 (ofBigEndian (bytes.drop 4)))).getD ⟨0, 0⟩) (fun reader => ?_) ?_ ?_
  · simp only [Reader.rational, bind, StateT.bind]
    rcases Reader.take? 8 reader with ⟨_ | bytes, after⟩ <;> rfl
  · intro fits shows
    have upper := @Shows.of_fits _ _ _ _ _ shows fits 0 32 (by decide)
    have lower := @Shows.of_fits _ _ _ _ _ shows fits 32 32 (by decide)
    have first := @numberAt_whole buffer cursor 4 (by omega)
    have second := @numberAt_whole buffer (cursor + 4) 4 (by omega)
    rw [Nat.add_zero, Nat.add_zero] at upper
    rw [Nat.mul_add] at second
    rw [upper, lower, first, second]
    simp [List.take_take, List.drop_take]
  · intro missing shows
    have upper := @Shows.of_missing _ _ _ _ _ shows missing 0 32 (by decide)
    have lower := @Shows.of_missing _ _ _ _ _ shows missing 32 32 (by decide)
    rw [Nat.add_zero] at upper
    rw [upper, lower]
    rfl

theorem follows_skip (size : Nat) :
    Follows buffer view declared cursor (read (Reader.skip size)) [.skipped size] [] () := by
  intro bounded _
  have moved : cursor + min size (buffer.length - cursor) = min (cursor + size) buffer.length := by
    omega
  show Except.ok (Except.ok (), Reader.mk buffer (cursor + min size (buffer.length - cursor))) = _
  rw [moved]
  rfl

theorem follows_times {element : Decode α} {pieces : List Piece} {fixed : Nat → List FixedPlace}
    {result : Nat → α}
    (each : ∀ declared cursor,
      Follows buffer view declared cursor element pieces (fixed declared) (result declared))
    (count : Nat) :
    Follows buffer view declared cursor (times element count)
      (List.replicate count pieces).flatten
      ((List.range count).flatMap fun index => fixed (declared + index * total pieces))
      ((List.range count).map fun index => result (declared + index * total pieces)) := by
  induction count generalizing declared cursor with
  | zero => exact follows_pure []
  | succ count ih =>
    have moved (index : Nat) : declared + (index + 1) * total pieces =
        declared + total pieces + index * total pieces := by
      rw [Nat.succ_mul]
      omega
    rw [List.replicate_succ, List.flatten_cons, List.range_succ_eq_map, List.flatMap_cons,
      List.map_cons, List.flatMap_map, List.map_map, Nat.zero_mul, Nat.add_zero]
    simp only [Function.comp_def, moved]
    exact (each declared cursor).bind (ih.return (result declared :: ·))

end Decode

end PacketSpec
