import PacketSpec.Codec.Layout
import PacketSpec.Proofs.Size
import PacketSpec.Proofs.Wire.Bits

/-! The segments of a structure are its fields in order, and a chunk is exactly as wide as the
fields that share it. -/
namespace PacketSpec

def widthsOf (fields : List Field) : List (Field × Nat) := fields.map fun f => (f, f.width)

def totalWidth : List Field → Nat
  | [] => 0
  | field :: rest => field.width + totalWidth rest

theorem totalWidth_append (front back : List Field) :
    totalWidth (front ++ back) = totalWidth front + totalWidth back := by
  induction front with
  | nil => simp [totalWidth]
  | cons field front ih => simp [totalWidth, ih, Nat.add_assoc]

namespace BitWindow

theorem place_symbols (top : Nat) (fields : List Field) :
    (place top (widthsOf fields)).map Packed.symbol = fields := by
  induction fields generalizing top with
  | nil => rfl
  | cons field rest ih =>
    show field :: (place (top - field.width) (widthsOf rest)).map Packed.symbol = _
    rw [ih]

theorem place_widths (top : Nat) (fields : List Field) :
    ∀ packed ∈ place top (widthsOf fields), packed.width = packed.symbol.width := by
  induction fields generalizing top with
  | nil => nofun
  | cons field rest ih => exact List.forall_mem_cons.mpr ⟨rfl, ih (top - field.width)⟩

theorem closes_whole {used : Nat} (closed : closes used = true) : used % 8 = 0 := by
  simp only [closes, Bool.and_eq_true, decide_eq_true_eq, beq_iff_eq, Nat.one_shiftLeft] at closed
  obtain ⟨large, power⟩ := closed
  by_cases small : used.log2 < 3
  · have : 2 ^ used.log2 < 2 ^ 3 := Nat.pow_lt_pow_right (by decide) small
    omega
  · obtain ⟨k, three⟩ : ∃ k, used.log2 = k + 3 := ⟨used.log2 - 3, by omega⟩
    rw [three, Nat.pow_add] at power
    omega

/-- Reading a word field by field from its top bits reads all of its bits. -/
theorem place_bits (fields : List Field) (word : Nat) :
    (place (totalWidth fields) (widthsOf fields)).flatMap
        (fun packed => Wire.bitsOfNat packed.width (word >>> packed.shift)) =
      Wire.bitsOfNat (totalWidth fields) word := by
  induction fields with
  | nil => rfl
  | cons field rest ih =>
    have below : totalWidth (field :: rest) - field.width = totalWidth rest := by
      rw [totalWidth, Nat.add_sub_cancel_left]
    rw [widthsOf, List.map_cons, place, List.flatMap_cons, below]
    rw [← widthsOf, ih, totalWidth, Wire.bitsOfNat_add]

/-- Numbers that fit their fields do not disturb each other in the word they are joined to. -/
theorem place_join (fields : List Field) (number : Field → Nat)
    (fits : ∀ field ∈ fields, number field < 1 <<< field.width) :
    ∃ word, word < 1 <<< totalWidth fields ∧
      (∀ start, ((place (totalWidth fields) (widthsOf fields)).map fun packed =>
        number packed.symbol <<< packed.shift).foldl (· ||| ·) start = start ||| word) ∧
      Wire.bitsOfNat (totalWidth fields) word =
        fields.flatMap fun field => Wire.bitsOfNat field.width (number field) := by
  induction fields with
  | nil => exact ⟨0, by decide, by simp [widthsOf, place], rfl⟩
  | cons field rest ih =>
    obtain ⟨word, bound, joined, bits⟩ := ih fun other member => fits other (.tail _ member)
    have fit := fits field (.head _)
    rw [Nat.one_shiftLeft] at bound fit
    have below : totalWidth (field :: rest) - field.width = totalWidth rest := by
      rw [totalWidth, Nat.add_sub_cancel_left]
    refine ⟨number field <<< totalWidth rest ||| word, ?_, ?_, ?_⟩
    · rw [Nat.one_shiftLeft]
      apply Nat.or_lt_two_pow
      · rw [totalWidth, Nat.shiftLeft_eq, Nat.pow_add]
        exact Nat.mul_lt_mul_of_pos_right fit (Nat.two_pow_pos _)
      · refine Nat.lt_of_lt_of_le bound (Nat.pow_le_pow_right (by decide) ?_)
        exact Nat.le_add_left _ _
    · intro start
      rw [widthsOf, List.map_cons, place, List.map_cons, List.foldl_cons, below]
      rw [← widthsOf, joined, Nat.or_assoc]
    · -- the upper bits are those of the first field, the lower ones those of the others
      have upper : (number field <<< totalWidth rest ||| word) >>> totalWidth rest =
          number field := by
        rw [Nat.shiftRight_or_distrib, Nat.shiftLeft_shiftRight, Nat.shiftRight_eq_div_pow word,
          Nat.div_eq_of_lt bound, Nat.or_zero]
      have lower : Wire.bitsOfNat (totalWidth rest) (number field <<< totalWidth rest ||| word) =
          Wire.bitsOfNat (totalWidth rest) word := by
        apply Wire.bitsOfNat_congr
        intro i inside
        simp [Nat.testBit_shiftLeft, Nat.not_le_of_lt inside]
      rw [totalWidth, Wire.bitsOfNat_add, upper, lower, bits, List.flatMap_cons]

/-- What is read from a word at the place of a field is the number with the field's bits. -/
theorem place_read {fields : List Field} {number : Field → Nat} {word : Nat}
    (fits : ∀ field ∈ fields, number field < 1 <<< field.width)
    (bits : Wire.bitsOfNat (totalWidth fields) word =
      fields.flatMap fun field => Wire.bitsOfNat field.width (number field)) :
    ∀ packed ∈ place (totalWidth fields) (widthsOf fields),
      word >>> packed.shift % 1 <<< packed.width = number packed.symbol := by
  induction fields with
  | nil => nofun
  | cons field rest ih =>
    have below : totalWidth (field :: rest) - field.width = totalWidth rest := by
      rw [totalWidth, Nat.add_sub_cancel_left]
    rw [totalWidth, Wire.bitsOfNat_add, List.flatMap_cons] at bits
    obtain ⟨upper, lower⟩ := List.append_inj bits (by simp)
    rw [widthsOf, List.map_cons, place, below, ← widthsOf]
    refine List.forall_mem_cons.mpr ⟨?_, ih (fun other member => fits other (.tail _ member)) lower⟩
    rw [Wire.mod_eq_of_bitsOfNat_eq upper]
    exact Nat.mod_eq_of_lt (fits field (.head _))

end BitWindow

namespace Codec

def Segment.fields : Segment → List Field
  | .chunk shared => shared.fields.map Packed.symbol
  | .aligned field => [field]

/-- A chunk is filled to whole bytes by packed fields; no other field shares its bytes. -/
def Segment.Sound : Segment → Prop
  | .chunk shared => ∃ fields, fields ≠ [] ∧
      shared = ⟨totalWidth fields, BitWindow.place (totalWidth fields) (widthsOf fields)⟩ ∧
      totalWidth fields % 8 = 0 ∧ ∀ field ∈ fields, field.isPacked = true
  | .aligned field => field.isPacked = false

/-- The window holds exactly the packed fields that wait for their chunk. -/
structure Holds (window : BitWindow Field) (waiting : List Field) : Prop where
  pending : window.pending = widthsOf waiting
  used : window.used = totalWidth waiting
  packed : ∀ field ∈ waiting, field.isPacked = true

theorem Holds.eq_nil {window : BitWindow Field} {waiting : List Field}
    (holds : Holds window waiting) (empty : window.isEmpty = true) : waiting = [] := by
  rw [BitWindow.isEmpty, holds.pending, widthsOf] at empty
  simpa using empty

theorem Holds.append {window after : BitWindow Field} {waiting : List Field} {field : Field}
    (holds : Holds window waiting) (packed : field.isPacked = true)
    (pending : after.pending = window.pending ++ [(field, field.width)])
    (used : after.used = window.used + field.width) : Holds after (waiting ++ [field]) := by
  refine ⟨?_, ?_, ?_⟩
  · rw [pending, holds.pending, widthsOf, widthsOf, List.map_append, List.map_singleton]
  · rw [used, holds.used, totalWidth_append, totalWidth, totalWidth, Nat.add_zero]
  · intro other member
    rcases List.mem_append.mp member with before | last
    · exact holds.packed other before
    · rw [List.mem_singleton.mp last]
      exact packed

def Holds.OrCloses (after : BitWindow Field) (fields : List Field) : Option (Chunk Field) → Prop
  | none => Holds after fields
  | some chunk => Holds after [] ∧ (Segment.chunk chunk).fields = fields ∧
      (Segment.chunk chunk).Sound

theorem Holds.push {window after : BitWindow Field} {waiting : List Field} {field : Field}
    {closed : Option (Chunk Field)} (holds : Holds window waiting) (packed : field.isPacked = true)
    (pushed : window.push field field.width = .ok (.ok closed, after)) :
    Holds.OrCloses after (waiting ++ [field]) closed := by
  simp only [BitWindow.push, bind_eq_ok, Size.add_eq_ok] at pushed
  obtain ⟨used, ⟨rfl, -⟩, pushed⟩ := pushed
  have joined : Holds { window with
      used := window.used + field.width
      pending := window.pending ++ [(field, field.width)] } (waiting ++ [field]) :=
    holds.append packed rfl rfl
  split at pushed
  · cases pushed
  · split at pushed
    · next closes =>
      cases pushed
      have pending := joined.pending
      have used := joined.used
      simp only at pending used
      rw [pending, used]
      refine ⟨⟨rfl, rfl, nofun⟩, BitWindow.place_symbols _ _, _, ?_, rfl, ?_, joined.packed⟩
      · simp
      · rw [← used]
        exact BitWindow.closes_whole closes
    · cases pushed
      exact joined

theorem layoutFrom_fields {s : Struct} {window : BitWindow Field} {waiting fields : List Field}
    {segments : List Segment} (holds : Holds window waiting)
    (laid : layoutFrom s window fields = .ok segments) :
    segments.flatMap Segment.fields = waiting ++ fields ∧ ∀ segment ∈ segments, segment.Sound := by
  induction fields generalizing window waiting segments with
  | nil =>
    unfold layoutFrom at laid
    split at laid
    · next empty =>
      cases laid
      exact ⟨by simp [holds.eq_nil empty], nofun⟩
    · cases laid
  | cons field rest ih =>
    unfold layoutFrom at laid
    split at laid
    · next packed =>
      obtain ⟨pushed, step, laid⟩ := bind_eq_ok.mp laid
      match pushed with
      | (.error _, _) => cases laid
      | (.ok none, after) =>
        obtain ⟨whole, sound⟩ := ih (holds.push packed step) laid
        exact ⟨by rw [whole, List.append_assoc, List.singleton_append], sound⟩
      | (.ok (some chunk), after) =>
        obtain ⟨more, tail, eq⟩ := bind_eq_ok.mp laid
        cases eq
        obtain ⟨fresh, front, filled⟩ := holds.push packed step
        obtain ⟨whole, sound⟩ := ih fresh tail
        refine ⟨?_, List.forall_mem_cons.mpr ⟨filled, sound⟩⟩
        rw [List.flatMap_cons, front, whole, List.nil_append, List.append_assoc,
          List.singleton_append]
    · next wide =>
      split at laid
      · next empty =>
        obtain ⟨more, tail, eq⟩ := bind_eq_ok.mp laid
        cases eq
        obtain ⟨whole, sound⟩ := ih holds tail
        have unheld := holds.eq_nil empty
        subst unheld
        refine ⟨?_, List.forall_mem_cons.mpr ⟨eq_false_of_ne_true wide, sound⟩⟩
        rw [List.flatMap_cons, whole]
        rfl
      · cases laid

theorem layout_fields {width : Nat} {s : Struct} {segments : List Segment}
    (laid : layout width s = .ok segments) :
    segments.flatMap Segment.fields = s.fields ∧ ∀ segment ∈ segments, segment.Sound :=
  layoutFrom_fields (show Holds (BitWindow.empty width) [] from ⟨rfl, rfl, nofun⟩) laid

/-- A field outside chunks is a segment, and the fields around it fill those around the segment. -/
theorem segments_around {segments : List Segment} {before after : List Field} {field : Field}
    (sound : ∀ segment ∈ segments, segment.Sound)
    (place : segments.flatMap Segment.fields = before ++ field :: after)
    (wide : field.isPacked = false) :
    ∃ front back, segments = front ++ .aligned field :: back ∧
      front.flatMap Segment.fields = before ∧ back.flatMap Segment.fields = after := by
  induction segments generalizing before with
  | nil => simp at place
  | cons segment rest ih =>
    have later {before : List Field}
        (place : rest.flatMap Segment.fields = before ++ field :: after) :
        ∃ front back, segment :: rest = front ++ .aligned field :: back ∧
          front.flatMap Segment.fields = segment.fields ++ before ∧
          back.flatMap Segment.fields = after := by
      obtain ⟨front, back, rfl, rfl, rfl⟩ :=
        ih (fun other member => sound other (.tail _ member)) place
      exact ⟨segment :: front, back, rfl, rfl, rfl⟩
    rw [List.flatMap_cons] at place
    rcases List.append_eq_append_iff.mp place with ⟨between, rfl, others⟩ | ⟨own, fields, others⟩
    · exact later others
    · cases own with
      | nil =>
        rw [List.append_nil] at fields
        have found := @later [] others.symm
        rwa [List.append_nil, fields] at found
      | cons first own =>
        obtain ⟨rfl, rfl⟩ := List.cons.inj others
        have inside : field ∈ segment.fields := by simp [fields]
        have sound := sound segment (.head _)
        cases segment with
        | chunk shared =>
          obtain ⟨packed, -, rfl, -, each⟩ := sound
          rw [Segment.fields, BitWindow.place_symbols] at inside
          simp [each field inside] at wide
        | aligned other =>
          cases before with
          | nil =>
            obtain ⟨rfl, rfl⟩ := List.cons.inj fields
            exact ⟨[], rest, rfl, rfl, rfl⟩
          | cons => simp [Segment.fields] at fields

theorem Segment.Sound.fields_ne_nil {segment : Segment} (sound : segment.Sound) :
    segment.fields ≠ [] := by
  cases segment with
  | aligned field => simp [Segment.fields]
  | chunk shared =>
    obtain ⟨fields, nonempty, rfl, -, -⟩ := sound
    rwa [Segment.fields, BitWindow.place_symbols]

/-- A segment with a field that is not packed has no other. -/
theorem Segment.Sound.eq_aligned {segment : Segment} {field : Field} (sound : segment.Sound)
    (member : field ∈ segment.fields) (wide : field.isPacked = false) :
    segment = .aligned field := by
  cases segment with
  | aligned only => rw [List.mem_singleton.mp member]
  | chunk shared =>
    obtain ⟨fields, -, rfl, -, packed⟩ := sound
    rw [Segment.fields, BitWindow.place_symbols] at member
    simp [packed field member] at wide

/-- A field that is not packed is a segment of its own, between the segments of the fields before
and after it. -/
theorem segments_split {segments : List Segment} {body after : List Field} {field : Field}
    (sound : ∀ segment ∈ segments, segment.Sound)
    (fields : segments.flatMap Segment.fields = body ++ field :: after)
    (wide : field.isPacked = false) :
    ∃ front back, segments = front ++ .aligned field :: back ∧
      front.flatMap Segment.fields = body ∧ back.flatMap Segment.fields = after := by
  induction segments generalizing body with
  | nil => simp at fields
  | cons segment rest ih =>
    have filled := sound segment (.head _)
    rw [List.flatMap_cons, List.append_eq_append_iff] at fields
    rcases fields with ⟨more, rfl, later⟩ | ⟨more, own, later⟩
    · obtain ⟨front, back, rfl, same, others⟩ :=
        ih (fun other member => sound other (.tail _ member)) later
      exact ⟨segment :: front, back, rfl, by rw [List.flatMap_cons, same], others⟩
    · cases more with
      | nil =>
        have next : rest.flatMap Segment.fields = [] ++ field :: after := later.symm
        obtain ⟨front, back, rfl, same, others⟩ :=
          ih (fun other member => sound other (.tail _ member)) next
        refine ⟨segment :: front, back, rfl, ?_, others⟩
        rw [List.flatMap_cons, same, own, List.append_nil, List.append_nil]
      | cons first more =>
        cases later
        obtain rfl := filled.eq_aligned (by rw [own]; simp) wide
        cases body with
        | cons => simp [Segment.fields] at own
        | nil =>
          cases own
          exact ⟨[], rest, rfl, rfl, rfl⟩

theorem segments_of_last {segments : List Segment} {body : List Field} {last : Field}
    (sound : ∀ segment ∈ segments, segment.Sound)
    (fields : segments.flatMap Segment.fields = body ++ [last]) (wide : last.isPacked = false) :
    ∃ front, segments = front ++ [.aligned last] ∧ front.flatMap Segment.fields = body := by
  obtain ⟨front, back, rfl, same, others⟩ := segments_split sound fields wide
  cases back with
  | nil => exact ⟨front, rfl, same⟩
  | cons segment rest =>
    rw [List.flatMap_cons, List.append_eq_nil_iff] at others
    exact absurd others.1 (sound segment (by simp)).fields_ne_nil

end Codec

end PacketSpec
