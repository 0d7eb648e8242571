import PacketSpec.Proofs.Codec.Following

/-! Reading a structure of known size from a buffer that is long enough cuts the buffer into ranges
of bits: one for each field, one after the other. -/
namespace PacketSpec

open Wire Decode Piece

/-- A buffer that is long enough shows its own bits. -/
theorem shows_numberAt {front buffer : Bytes} {pieces : List Piece}
    (enough : total pieces ≤ buffer.length) :
    Shows (front ++ buffer) (numberAt buffer) 0 front.length pieces := by
  rintro before piece after rfl offset width _
  rw [total_append, total] at enough
  have moved := @cursorAfter_of_le front.length before (front ++ buffer).length
    (by rw [List.length_append]; omega)
  rw [moved, found, if_pos (by rw [List.length_append]; omega), Nat.zero_add,
    Nat.mul_add 8 front.length, Nat.add_assoc, numberAt_append]

/-- A structure of known size that lies whole in the buffer reads as the numbers in the ranges of
its fields, and takes no other bytes, unless a fixed field does not hold its value: then the error
names the first such field. -/
theorem decode_slices_bits {document : Document} {window : Nat} {source : String} {model : Model}
    {id : String} {buffer : Bytes} (accepted : analyze document window source = .ok model)
    (known : model.isStatic id = true)
    (enough : (model.slicing id).extent ≤ 8 * buffer.length) :
    ∃ size, (model.slicing id).extent = 8 * size ∧
      match (model.slicing id).mismatch? (numberAt buffer) 0 with
      | some error =>
        model.decode window id buffer = .ok (.error error) ∧
        ∀ front, ∃ after, (model.decodeFrom window id).run ⟨front ++ buffer, front.length⟩ =
          .ok (.error error, after)
      | none =>
        model.decode window id buffer = .ok (.ok {
          packet := (model.slicing id).value (numberAt buffer) 0
          payload := none
          size }) ∧
        ∀ front, (model.decodeFrom window id).run ⟨front ++ buffer, front.length⟩ =
          .ok (.ok ((model.slicing id).value (numberAt buffer) 0),
            ⟨front ++ buffer, front.length + size⟩) := by
  have formed : model.WellFormed window :=
    { coherent_of_analyze accepted with names := names_of_analyze accepted }
  obtain ⟨decoder, found, follows⟩ := formed.follows_decoder (made_of_analyze accepted) known
  have extent := (follows [] (numberAt buffer)).extent
  have enough : total (model.pieces window id) ≤ buffer.length := by omega
  have run (front : Bytes) := (follows (front ++ buffer) (numberAt buffer)).follows 0 front.length
    (by simp) (shows_numberAt enough)
  refine ⟨total (model.pieces window id), extent, ?_⟩
  cases mismatch : (model.slicing id).mismatch? (numberAt buffer) 0 with
  | some error =>
    have fails (front : Bytes) : ∃ after, decoder.run ⟨front ++ buffer, front.length⟩ =
        .ok (.error error, after) := by
      have run := run front
      rw [Nat.mul_zero, ← Slicing.mismatch?, mismatch] at run
      exact run
    refine ⟨?_, fun front => ?_⟩
    · obtain ⟨after, run⟩ := fails []
      exact Model.decode_of_run found run
    · obtain ⟨after, run⟩ := fails front
      exact ⟨after, Model.decodeFrom_of_run found run⟩
  | none =>
    have reads (front : Bytes) : decoder.run ⟨front ++ buffer, front.length⟩ =
        .ok (.ok ((model.slicing id).value (numberAt buffer) 0, none),
          ⟨front ++ buffer, front.length + total (model.pieces window id)⟩) := by
      have run := run front
      rw [Nat.mul_zero, ← Slicing.mismatch?, mismatch,
        cursorAfter_of_le (by rw [List.length_append]; omega)] at run
      exact run
    refine ⟨?_, fun front => Model.decodeFrom_of_run found (reads front)⟩
    have run := reads []
    rw [List.length_nil, Nat.zero_add] at run
    exact Model.decode_of_run found run

def probeDocument : Document where
  ranges := [⟨"'0x4000'", "#probe"⟩]
  structs := [
    ("0x4000", [
      ⟨"u(8)", "probe_descriptor", "'0x40'"⟩,
      ⟨"u(3)", "mode", "enum\x7bMode\x7d"⟩,
      ⟨"u(5)", "level", ""⟩,
      ⟨"2*u(24)", "marks", "struct\x7bMark\x7d"⟩,
      ⟨"i(16)", "gain", ""⟩]),
    ("Mark", [⟨"u(8)", "version", "0x02"⟩, ⟨"u(16)", "index", ""⟩])]
  enums := [("Mode", [⟨"OFF", "0x0"⟩, ⟨"ON", "0x1"⟩])]

def probeModel : Model where
  source := "probe"
  enums := [⟨"Mode", "Mode", [⟨"Off", 0⟩, ⟨"On", 1⟩]⟩]
  structs := [
    { key := "Mark", id := "Mark", kind := "mark", role := .nested
      fields := [
        ⟨"version", .scalar false, 8, .none, some 2, false⟩,
        ⟨"index", .scalar false, 16, .none, none, false⟩]
      sizeBits := 24, descriptor := none },
    { key := "0x4000", id := "Probe", kind := "probe", role := .packet
      fields := [
        ⟨"probe_descriptor", .descriptor, 8, .none, some 0x4000, false⟩,
        ⟨"mode", .enum "Mode", 3, .none, none, false⟩,
        ⟨"level", .bitfield, 5, .none, none, false⟩,
        ⟨"marks", .struct "Mark", 24, .constant 2, none, false⟩,
        ⟨"gain", .scalar true, 16, .none, none, false⟩]
      sizeBits := 32, descriptor := some 0x80004000 }]
  descriptors := ⟨[("probe", 0x80004000)]⟩
  substructs := ["Mark"]

theorem analyze_probe : analyze probeDocument 32 "probe" = .ok probeModel :=
  ok_of_toOption (by decide +kernel)

/-- The last byte is left over. In the second buffer the version of the second mark is wrong. -/
theorem probe_slices_bits :
    analyze probeDocument 32 "probe" = .ok probeModel ∧ probeModel.isStatic "Probe" = true ∧
    probeModel.decode 32 "Probe" [0x40, 0x25, 2, 0, 7, 2, 1, 0, 0xff, 0xfe, 0x99] = .ok (.ok {
      packet := .record [
        ("mode", .enum (.named ⟨"On", 1⟩)),
        ("level", .unsigned 5),
        ("marks", .list [.record [("index", .unsigned 7)], .record [("index", .unsigned 256)]]),
        ("gain", .signed (-2))]
      payload := none
      size := 10 }) ∧
    probeModel.decode 32 "Probe" [0x40, 0x25, 2, 0, 7, 3, 1, 0, 0xff, 0xfe] =
      .ok (.error (.invalidFixedValue "Mark" "version" 2 3)) := by
  have static : probeModel.isStatic "Probe" = true := by decide
  have extent : (probeModel.slicing "Probe").extent = 80 := by decide
  refine ⟨analyze_probe, static, ?_, ?_⟩
  · obtain ⟨size, sized, read⟩ := @decode_slices_bits _ _ _ _ "Probe"
      [0x40, 0x25, 2, 0, 7, 2, 1, 0, 0xff, 0xfe, 0x99] analyze_probe static (by decide)
    obtain rfl : size = 10 := by omega
    exact read.1
  · obtain ⟨size, sized, read⟩ := @decode_slices_bits _ _ _ _ "Probe"
      [0x40, 0x25, 2, 0, 7, 3, 1, 0, 0xff, 0xfe] analyze_probe static (by decide)
    exact read.1

end PacketSpec
