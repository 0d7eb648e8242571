import PacketSpec.Proofs.Codec.Reading

/-!
What a reading step that succeeds has taken from its input, and how it compares with the bits that
the result is written as. A read past the end of the input takes nothing, so it shows in the number
of bytes taken.
-/
namespace PacketSpec

open Wire

namespace Decode

variable {α β : Type}

/-- If the step gives a result, it has taken the bytes at the cursor that satisfy the condition with
it. -/
def Takes (step : Decode α) (post : α → Bytes → Prop) : Prop :=
  ∀ front rest a after, step.run ⟨front ++ rest, front.length⟩ = .ok (.ok a, after) →
    ∃ taken others, rest = taken ++ others ∧
      after = ⟨front ++ rest, (front ++ taken).length⟩ ∧ post a taken

theorem Takes.mono {step : Decode α} {post weaker : α → Bytes → Prop} (takes : Takes step post)
    (implies : ∀ a taken, post a taken → weaker a taken) : Takes step weaker := by
  intro front rest a after run
  obtain ⟨taken, others, split, moved, holds⟩ := takes front rest a after run
  exact ⟨taken, others, split, moved, implies a taken holds⟩

theorem takes_pure {a : α} {post : α → Bytes → Prop} (holds : post a []) :
    Takes (pure a) post := by
  intro front rest b after run
  cases run
  exact ⟨[], rest, rfl, by rw [List.append_nil], holds⟩

theorem takes_throw {error : DecodeError} {post : α → Bytes → Prop} :
    Takes (throw error) post := nofun

theorem takes_fault {fault : Fault} {post : α → Bytes → Prop} :
    Takes (check (.error fault)) post := nofun

theorem takes_check {result : Except Fault α} :
    Takes (check result) fun a taken => taken = [] ∧ result = .ok a := by
  cases result with
  | error => exact takes_fault
  | ok a => exact takes_pure ⟨rfl, rfl⟩

theorem takes_bind {step : Decode α} {next : α → Decode β} {first : α → Bytes → Prop}
    {post : β → Bytes → Prop} (takes : Takes step first)
    (continues : ∀ a taken, first a taken → Takes (next a) fun b more => post b (taken ++ more)) :
    Takes (step >>= next) post := by
  intro front rest b after run
  rw [run_bind] at run
  split at run
  · next a middle ran =>
    obtain ⟨taken, others, rfl, rfl, holds⟩ := takes front rest a middle ran
    rw [← List.append_assoc] at run
    obtain ⟨more, last, rfl, rfl, ends⟩ :=
      continues a taken holds (front ++ taken) others b after run
    exact ⟨taken ++ more, last, by simp, by simp, ends⟩
  · cases run
  · cases run

/-- A step that takes nothing may stand in front. -/
theorem takes_after {step : Decode α} {next : α → Decode β} {known : α → Prop}
    {post : β → Bytes → Prop} (takes : Takes step fun a taken => taken = [] ∧ known a)
    (continues : ∀ a, known a → Takes (next a) post) : Takes (step >>= next) post := by
  refine takes_bind takes ?_
  rintro a _ ⟨rfl, holds⟩
  exact continues a holds

theorem Takes.return {step : Decode α} {post : β → Bytes → Prop} (f : α → β)
    (takes : Takes step fun a taken => post (f a) taken) :
    Takes (do return f (← step)) post := by
  refine takes_bind takes fun a taken holds => takes_pure ?_
  rwa [List.append_nil]

theorem takes_remaining : Takes remaining fun _ taken => taken = [] ∧ True := by
  intro front rest a after run
  cases run
  exact ⟨[], rest, rfl, by rw [List.append_nil], rfl, trivial⟩

theorem takes_read {action : StateM Reader α} {post : α → Bytes → Prop}
    (runs : ∀ front rest, ∃ taken others, rest = taken ++ others ∧
      (action ⟨front ++ rest, front.length⟩).2 = ⟨front ++ rest, (front ++ taken).length⟩ ∧
      post (action ⟨front ++ rest, front.length⟩).1 taken) : Takes (read action) post := by
  intro front rest a after run
  rw [read_run] at run
  cases run
  exact runs front rest

/-- A whole read, or one that the input is too short for. -/
theorem take?_cases (size : Nat) (front rest : Bytes) :
    (∃ taken others, rest = taken ++ others ∧ taken.length = size ∧
      Reader.take? size ⟨front ++ rest, front.length⟩ =
        (some taken, ⟨front ++ rest, (front ++ taken).length⟩)) ∨
    Reader.take? size ⟨front ++ rest, front.length⟩ = (none, ⟨front ++ rest, front.length⟩) := by
  by_cases enough : size ≤ rest.length
  · have sized : (rest.take size).length = size := List.length_take_of_le enough
    refine .inl ⟨rest.take size, rest.drop size, (List.take_append_drop _ _).symm, sized, ?_⟩
    have taken := take?_run front (rest.take size) (rest.drop size) sized
    rwa [List.append_assoc, List.take_append_drop] at taken
  · right
    simp [Reader.take?, Reader.remaining, enough]

/-- Reading what `convert` makes of a number of bytes. -/
theorem takes_whole {size : Nat} {action : StateM Reader α} (convert : Option Bytes → α)
    {post : α → Bytes → Prop}
    (action_eq : ∀ reader, action reader =
      (convert (Reader.take? size reader).1, (Reader.take? size reader).2))
    (full : ∀ taken, taken.length = size → post (convert (some taken)) taken)
    (short : post (convert none) []) : Takes (read action) post := by
  refine takes_read fun front rest => ?_
  rw [action_eq]
  rcases take?_cases size front rest with ⟨taken, others, rfl, sized, run⟩ | run
  · rw [run]
    exact ⟨taken, others, rfl, rfl, full taken sized⟩
  · rw [run]
    exact ⟨[], rest, rfl, by rw [List.append_nil], short⟩

theorem takes_slice {size : Nat} {post : Bytes → Bytes → Prop} (part : ∀ taken, post taken taken) :
    Takes (read (Reader.slice size)) post := by
  refine takes_read fun front rest => ⟨rest.take size, rest.drop size, ?_, ?_, ?_⟩
  · rw [List.take_append_drop]
  · rw [slice_rest, List.length_append]
  · rw [slice_rest]
    exact part _

theorem takes_skip {size : Nat} {post : Unit → Bytes → Prop}
    (part : ∀ taken, taken.length ≤ size → post () taken) :
    Takes (read (Reader.skip size)) post := by
  refine takes_read fun front rest => ⟨rest.take size, rest.drop size, ?_, ?_, ?_⟩
  · rw [List.take_append_drop]
  · simp [Reader.skip, Reader.remaining]
  · exact part _ (List.length_take_le _ _)

end Decode

def allKept (bits : List Bool) : List Bool := List.replicate bits.length true

theorem flatMap_allKept {α : Type} {items : List α} {bits kept : α → List Bool}
    (each : ∀ item ∈ items, kept item = allKept (bits item)) :
    items.flatMap kept = allKept (items.flatMap bits) := by
  induction items with
  | nil => rfl
  | cons item rest ih =>
    rw [List.flatMap_cons, List.flatMap_cons, each item (.head _),
      ih fun other member => each other (.tail _ member), allKept, allKept, allKept,
      List.length_append, List.replicate_append_replicate]

/-- The bytes that were taken for a value against the bits that it is written as: they are no more,
and if there are as many, the value is written as them, with zeros where bits are not kept. -/
structure Recodes (bits kept : List Bool) (taken : Bytes) : Prop where
  marked : kept.length = bits.length
  bound : 8 * taken.length ≤ bits.length
  same : 8 * taken.length = bits.length →
    bits = List.zipWith (· && ·) kept (bitsOfBytes taken)

namespace Recodes

variable {bits kept : List Bool} {taken : Bytes}

@[simp] theorem length_allKept (bits : List Bool) : (allKept bits).length = bits.length :=
  List.length_replicate

theorem none_taken (marked : kept.length = bits.length) : Recodes bits kept [] := by
  refine ⟨marked, Nat.zero_le _, fun whole => ?_⟩
  simpa using List.length_eq_zero_iff.mp whole.symm

theorem zipWith_all (bits : List Bool) :
    List.zipWith (· && ·) (List.replicate bits.length true) bits = bits := by
  induction bits with
  | nil => rfl
  | cons bit rest ih => rw [List.length_cons, List.replicate_succ, List.zipWith_cons_cons, ih,
      Bool.true_and]

theorem zipWith_none (bits : List Bool) :
    List.zipWith (· && ·) (List.replicate bits.length false) bits =
      List.replicate bits.length false := by
  induction bits with
  | nil => rfl
  | cons bit rest ih => rw [List.length_cons, List.replicate_succ, List.zipWith_cons_cons, ih,
      Bool.false_and]

theorem all_taken (same : bits = bitsOfBytes taken) : Recodes bits (allKept bits) taken := by
  subst same
  refine ⟨List.length_replicate, by simp, fun _ => ?_⟩
  rw [allKept, zipWith_all]

/-- Fewer bits may be kept if the others are written as zeros. -/
theorem mask (whole : Recodes bits (allKept bits) taken) (mask : List Bool)
    (marked : mask.length = bits.length) :
    Recodes (List.zipWith (· && ·) mask bits) mask taken := by
  have length : (List.zipWith (· && ·) mask bits).length = bits.length := by
    rw [List.length_zipWith, marked, Nat.min_self]
  refine ⟨marked.trans length.symm, ?_, fun filled => ?_⟩
  · rw [length]
    exact whole.bound
  · rw [length] at filled
    have same := whole.same filled
    rw [allKept, ← filled, ← length_bitsOfBytes, zipWith_all] at same
    rw [same]

/-- Bits of which nothing is kept are written as zeros. -/
theorem zeros {size : Nat} (bound : 8 * taken.length ≤ size) :
    Recodes (List.replicate size false) (List.replicate size false) taken := by
  refine ⟨rfl, by simpa using bound, fun whole => ?_⟩
  rw [List.length_replicate, ← length_bitsOfBytes] at whole
  rw [← whole, zipWith_none]

theorem append {moreBits moreKept : List Bool} {more : Bytes} (first : Recodes bits kept taken)
    (second : Recodes moreBits moreKept more) :
    Recodes (bits ++ moreBits) (kept ++ moreKept) (taken ++ more) := by
  have bound := first.bound
  have moreBound := second.bound
  refine ⟨?_, ?_, fun whole => ?_⟩
  · rw [List.length_append, List.length_append, first.marked, second.marked]
  · rw [List.length_append, List.length_append]
    omega
  · rw [List.length_append, List.length_append] at whole
    have filled : 8 * taken.length = bits.length := by omega
    have marked : kept.length = (bitsOfBytes taken).length := by
      rw [first.marked, ← filled, length_bitsOfBytes]
    rw [bitsOfBytes_append, List.zipWith_append marked, ← first.same filled,
      ← second.same (by omega)]

end Recodes

namespace Decode

variable {α : Type} {element : Decode α} {bits kept : α → List Bool}

theorem takes_unsigned {width : Nat} (whole : 8 * (width / 8) = width) :
    Takes (read (Reader.unsigned (width / 8))) fun n taken =>
      Recodes (bitsOfNat width n) (allKept (bitsOfNat width n)) taken := by
  refine takes_whole (fun bytes => (bytes.map ofBigEndian).getD 0) (unsigned_run _) ?_
    (.none_taken (by simp))
  intro taken sized
  apply Recodes.all_taken
  have bits := bitsOfNat_ofBigEndian taken
  rwa [sized, whole] at bits

theorem takes_signed {width : Nat} (whole : 8 * (width / 8) = width) :
    Takes (read (Reader.signed (width / 8))) fun n taken =>
      Recodes (bitsOfNat width (ofSigned width n))
        (allKept (bitsOfNat width (ofSigned width n))) taken := by
  refine takes_whole (fun bytes => toSigned (8 * (width / 8)) ((bytes.map ofBigEndian).getD 0))
    (fun _ => rfl) ?_ (.none_taken (by simp))
  intro taken sized
  apply Recodes.all_taken
  have bits := bitsOfNat_ofBigEndian taken
  have bound := ofBigEndian_lt taken
  rw [sized, whole] at bits bound
  rw [← bits, whole, Option.map_some, Option.getD_some, ofSigned_toSigned bound]

theorem takes_rational :
    Takes (read Reader.rational) fun value taken =>
      Recodes (bitsOfNat 32 (ofSigned 32 value.num) ++ bitsOfNat 32 (ofSigned 32 value.den))
        (allKept (bitsOfNat 32 (ofSigned 32 value.num) ++ bitsOfNat 32 (ofSigned 32 value.den)))
        taken := by
  have half (bytes : Bytes) (sized : bytes.length = 4) :
      bitsOfNat 32 (ofSigned 32 (toSigned 32 (ofBigEndian bytes))) = bitsOfBytes bytes := by
    have bits := bitsOfNat_ofBigEndian bytes
    have bound := ofBigEndian_lt bytes
    rw [sized] at bits bound
    rw [ofSigned_toSigned bound, bits]
  refine takes_read fun front rest => ?_
  rcases take?_cases 8 front rest with ⟨taken, others, rfl, sized, run⟩ | run
  · rw [rational_run run]
    refine ⟨taken, others, rfl, rfl, .all_taken ?_⟩
    rw [half _ (by simp [sized]), half _ (by simp [sized]), ← bitsOfBytes_append,
      List.take_append_drop]
  · have missing : Reader.rational ⟨front ++ rest, front.length⟩ =
        (⟨0, 0⟩, ⟨front ++ rest, front.length⟩) := by
      simp only [Reader.rational, bind, StateT.bind, run]
      rfl
    rw [missing]
    exact ⟨[], rest, rfl, by rw [List.append_nil], .none_taken (by simp)⟩

theorem takes_array {size : Nat} :
    Takes (read (Reader.array size)) fun bytes taken =>
      Recodes (bitsOfBytes bytes) (allKept (bitsOfBytes bytes)) taken :=
  takes_whole (fun bytes => bytes.getD (List.replicate size 0)) (fun _ => rfl)
    (fun _ _ => .all_taken rfl) (.none_taken (by simp))

theorem takes_fixedText {capacity : Nat} :
    Takes (read (Reader.fixedText capacity)) fun text taken =>
      Recodes (bitsOfBytes text.raw) (allKept (bitsOfBytes text.raw)) taken := by
  refine takes_whole (fun bytes => (bytes.map (FixedText.ofBytes capacity)).getD (.empty capacity))
    (fun _ => rfl) ?_ (.none_taken (by simp))
  intro taken sized
  apply Recodes.all_taken
  rw [Option.map_some, Option.getD_some, raw_ofBytes sized]

theorem takes_times (each : Takes element fun a taken => Recodes (bits a) (kept a) taken)
    (count : Nat) :
    Takes (times element count) fun list taken =>
      Recodes (list.flatMap bits) (list.flatMap kept) taken := by
  induction count with
  | zero => exact takes_pure (.none_taken rfl)
  | succ count ih =>
    refine takes_bind each fun first taken recoded => ?_
    exact (ih.mono fun list more others => recoded.append others).return (first :: ·)

theorem takes_upTo (each : Takes element fun a taken => Recodes (bits a) (kept a) taken)
    (count : Nat) :
    Takes (upTo element count) fun list taken =>
      Recodes (list.flatMap bits) (list.flatMap kept) taken := by
  induction count with
  | zero => exact takes_pure (.none_taken rfl)
  | succ count ih =>
    refine takes_after takes_remaining fun available _ => ?_
    split
    · exact takes_pure (.none_taken rfl)
    · refine takes_bind each fun first taken recoded => ?_
      exact (ih.mono fun list more others => recoded.append others).return (first :: ·)

end Decode

end PacketSpec
