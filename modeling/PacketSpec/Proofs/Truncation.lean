import PacketSpec.Proofs.Codec.Following

/-!
Reading a structure of known size from a buffer that may be too short. What is missing reads as
zeros, but the cursor stays in front of it, so a later and narrower piece is read from the bits
where the missing one should begin.
-/
namespace PacketSpec

open Wire Decode Piece

namespace Piece

variable {buffer : Bytes} {declared cursor length : Nat} {pieces before after : List Piece}
  {piece : Piece} {offset width : Nat}

/-- What is found in pieces that are declared from the byte `declared` on and read from the byte
`cursor` on. -/
def seen (buffer : Bytes) : (declared cursor : Nat) → List Piece → View
  | _, _, [], _, _ => 0
  | declared, cursor, piece :: rest, start, width =>
    if start < 8 * (declared + piece.size) then
      piece.found buffer cursor (start - 8 * declared) width
    else seen buffer (declared + piece.size) (piece.next buffer.length cursor) rest start width

theorem found_none : piece.found buffer cursor offset 0 = 0 := by
  simp [found, numberAt, natOfBits]

theorem seen_none (start : Nat) : seen buffer declared cursor pieces start 0 = 0 := by
  induction pieces generalizing declared cursor with
  | nil => rfl
  | cons piece rest ih =>
    rw [seen, found_none, ih]
    simp

theorem shows_seen : Shows buffer (seen buffer declared cursor pieces) declared cursor pieces := by
  rintro before piece after rfl offset width inside
  induction before generalizing declared cursor with
  | nil =>
    rw [List.nil_append, total, Nat.add_zero, seen]
    split
    · rw [Nat.add_sub_cancel_left]
      rfl
    · obtain rfl : width = 0 := by omega
      rw [seen_none, found_none]
  | cons first before ih =>
    have later : declared + total (first :: before) = declared + first.size + total before := by
      rw [total, Nat.add_assoc]
    rw [List.cons_append, later, seen, if_neg (by omega), ih]
    rfl

/-- At the end of the buffer the cursor stays. -/
theorem cursorAfter_end (pieces : List Piece) : cursorAfter length length pieces = length := by
  induction pieces with
  | nil => rfl
  | cons piece rest ih =>
    have stays : piece.next length length = length := by
      cases piece <;> grind [next]
    show cursorAfter length (piece.next length length) rest = length
    rw [stays, ih]

theorem cursorAfter_eq_total :
    cursorAfter length 0 pieces = total pieces ↔ total pieces ≤ length := by
  constructor
  · intro same
    rw [← same]
    exact cursorAfter_le pieces (Nat.zero_le length)
  · intro enough
    rw [cursorAfter_of_le (by omega), Nat.zero_add]

end Piece

/-- Where the buffer ends between two pieces, nothing is found in those after the end. -/
theorem Shows.of_cut {buffer : Bytes} {view : View} {front before after : List Piece}
    {piece : Piece} {offset width : Nat}
    (shows : Shows buffer view 0 0 (front ++ (before ++ piece :: after)))
    (cut : total front = buffer.length) (inside : offset + width ≤ 8 * piece.size) :
    view (8 * total (front ++ before) + offset) width = 0 := by
  have number := shows (front ++ before) piece after (by simp) offset width inside
  have stays : cursorAfter buffer.length 0 (front ++ before) = buffer.length := by
    rw [cursorAfter_append, cursorAfter_eq_total.mpr (by omega), cut, cursorAfter_end]
  rw [Nat.zero_add, stays, found] at number
  rw [number]
  split
  · next fits =>
    obtain rfl : width = 0 := by omega
    simp [numberAt, natOfBits]
  · rfl

/-- A structure of known size is read piece after piece. Each piece shows the bits at the cursor if
it lies whole before the end; otherwise it shows zeros and the cursor stays. So the pieces that are
declared inside the buffer show their own bits, and if the buffer ends between two pieces, all later
ones show zeros. -/
theorem decode_piece_by_piece {document : Document} {window : Nat} {source : String}
    {model : Model} {id : String} (accepted : analyze document window source = .ok model)
    (known : model.isStatic id = true) (buffer : Bytes) :
    (model.slicing id).extent = 8 * total (model.pieces window id) ∧
    (∃ view, Shows buffer view 0 0 (model.pieces window id)) ∧
    ∀ view, Shows buffer view 0 0 (model.pieces window id) →
      model.decode window id buffer = .ok (match (model.slicing id).mismatch? view 0 with
        | some error => .error error
        | none => .ok {
            packet := (model.slicing id).value view 0
            payload := none
            size := cursorAfter buffer.length 0 (model.pieces window id) }) ∧
      ∀ before piece after, model.pieces window id = before ++ piece :: after →
        ∀ offset width, offset + width ≤ 8 * piece.size →
          (total before + piece.size ≤ buffer.length →
            view (8 * total before + offset) width =
              numberAt buffer (8 * total before + offset) width) ∧
          ((∃ front more, before = front ++ more ∧ total front = buffer.length) →
            view (8 * total before + offset) width = 0) := by
  have formed : model.WellFormed window :=
    { coherent_of_analyze accepted with names := names_of_analyze accepted }
  obtain ⟨decoder, found, follows⟩ := formed.follows_decoder (made_of_analyze accepted) known
  refine ⟨(follows [] fun _ _ => 0).extent, ⟨_, shows_seen⟩, fun view shows => ⟨?_, ?_⟩⟩
  · have run := (follows buffer view).follows 0 0 (Nat.zero_le _) shows
    rw [Nat.mul_zero, ← Slicing.mismatch?] at run
    cases mismatch : (model.slicing id).mismatch? view 0 with
    | some error =>
      rw [mismatch] at run
      obtain ⟨after, run⟩ := run
      exact Model.decode_of_run found run
    | none =>
      rw [mismatch] at run
      exact Model.decode_of_run found run
  · intro before piece after split offset width inside
    refine ⟨fun fits => ?_, ?_⟩
    · have number := shows before piece after split offset width inside
      rwa [Nat.zero_add, cursorAfter_eq_total.mpr (by omega), Piece.found, if_pos fits] at number
    · rintro ⟨front, more, rfl, cut⟩
      rw [split, List.append_assoc] at shows
      exact shows.of_cut cut inside

def beaconDocument : Document where
  ranges := [⟨"'0x0001'", "#beacon"⟩]
  structs := [("0x0001", [
    ⟨"u(16)", "beacon_descriptor", "'0x0001'"⟩,
    ⟨"u(32)", "clock", ""⟩,
    ⟨"u(8)", "flags", ""⟩])]

def beaconModel : Model where
  source := "beacon"
  structs := [
    { key := "0x0001", id := "Beacon", kind := "beacon", role := .packet
      fields := [
        ⟨"beacon_descriptor", .descriptor, 16, .none, some 1, false⟩,
        ⟨"clock", .scalar false, 32, .none, none, false⟩,
        ⟨"flags", .scalar false, 8, .none, none, false⟩]
      sizeBits := 56, descriptor := some 1 }]
  descriptors := ⟨[("beacon", 1)]⟩

theorem analyze_beacon : analyze beaconDocument 32 "beacon" = .ok beaconModel :=
  ok_of_toOption (by decide +kernel)

/-- The clock is missing, and the flags are read from the byte where it begins. -/
theorem beacon_piece_by_piece :
    analyze beaconDocument 32 "beacon" = .ok beaconModel ∧ beaconModel.isStatic "Beacon" = true ∧
    beaconModel.pieces 32 "Beacon" = [.whole 2, .whole 4, .whole 1] ∧
    beaconModel.decode 32 "Beacon" [0, 1, 0xaa] = .ok (.ok {
      packet := .record [("clock", .unsigned 0), ("flags", .unsigned 0xaa)]
      payload := none
      size := 3 }) := by
  have static : beaconModel.isStatic "Beacon" = true := by decide
  obtain ⟨-, -, read⟩ := decode_piece_by_piece analyze_beacon static [0, 1, 0xaa]
  exact ⟨analyze_beacon, static, by decide, (read _ shows_seen).1⟩

/-- Every range has its own bits, which lie in the buffer, or reads as zero. -/
def OwnBits (buffer : Bytes) (view : View) : Prop :=
  ∀ start width, view start width = 0 ∨
    start + width ≤ 8 * buffer.length ∧ view start width = numberAt buffer start width

/-- The flags of the beacon come from bits of another field. -/
theorem beacon_not_ownBits :
    analyze beaconDocument 32 "beacon" = .ok beaconModel ∧ beaconModel.isStatic "Beacon" = true ∧
    ∃ decoded, beaconModel.decode 32 "Beacon" [0, 1, 0xaa] = .ok (.ok decoded) ∧
      ¬∃ view, OwnBits [0, 1, 0xaa] view ∧
        decoded.packet = (beaconModel.slicing "Beacon").value view 0 := by
  refine ⟨analyze_beacon, by decide,
    ⟨.record [("clock", .unsigned 0), ("flags", .unsigned 0xaa)], none, 3⟩, rfl, ?_⟩
  rintro ⟨view, own, packet⟩
  have sliced : (beaconModel.slicing "Beacon").value view 0 =
      .record [("clock", .unsigned (view 16 32)), ("flags", .unsigned (view 48 8))] := rfl
  have numbers : 0 = view 16 32 ∧ 0xaa = view 48 8 := by simpa [sliced] using packet
  rcases own 48 8 with zero | ⟨inside, -⟩
  · omega
  · simp at inside

end PacketSpec
