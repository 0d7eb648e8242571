import PacketSpec.Codec.Encode
import PacketSpec.Proofs.Size
import PacketSpec.Proofs.Wire.Bits

/-! What a successful writing step adds to the buffer, as bits. -/
namespace PacketSpec

namespace Wire.Writer

def append (writer : Writer) (bytes : Bytes) : Writer :=
  { writer with
    buffer := splice writer.buffer writer.offset bytes
    offset := writer.offset + bytes.length }

@[simp] theorem append_offset (writer : Writer) (bytes : Bytes) :
    (writer.append bytes).offset = writer.offset + bytes.length := rfl

@[simp] theorem append_nil (writer : Writer) : writer.append [] = writer := by
  simp [append, splice]

theorem append_buffer_length {writer : Writer} {bytes : Bytes}
    (room : writer.offset + bytes.length ≤ writer.buffer.length) :
    (writer.append bytes).buffer.length = writer.buffer.length := by
  simp [append, splice]
  omega

theorem length_take_append {buffer : Bytes} {offset : Nat} (bytes : Bytes)
    (room : offset + bytes.length ≤ buffer.length) :
    (buffer.take offset ++ bytes).length = offset + bytes.length := by
  rw [List.length_append, List.length_take]
  omega

theorem take_splice {buffer : Bytes} {offset : Nat} (bytes : Bytes)
    (room : offset + bytes.length ≤ buffer.length) :
    (splice buffer offset bytes).take (offset + bytes.length) = buffer.take offset ++ bytes := by
  rw [splice]
  exact List.take_left' (length_take_append bytes room)

theorem append_append {writer : Writer} {first second : Bytes}
    (room : writer.offset + first.length ≤ writer.buffer.length) :
    (writer.append first).append second = writer.append (first ++ second) := by
  have back : (splice writer.buffer writer.offset first).drop
      (writer.offset + first.length + second.length) =
      writer.buffer.drop (writer.offset + (first ++ second).length) := by
    have replaced := length_take_append first room
    rw [splice, List.drop_append, List.drop_of_length_le (by omega), List.drop_drop, replaced,
      List.nil_append, List.length_append]
    congr 1
    omega
  simp only [append, mk.injEq, and_true]
  refine ⟨?_, by simp [Nat.add_assoc]⟩
  rw [splice, take_splice first room, back, splice, List.append_assoc, List.append_assoc]
  simp

theorem append_written {writer : Writer} {bytes : Bytes}
    (room : writer.offset + bytes.length ≤ writer.buffer.length) :
    (writer.append bytes).written = writer.written ++ bytes := by
  rw [written, append_offset, append]
  exact take_splice bytes room

end Wire.Writer

namespace Encode

open Wire

variable {α β : Type}

/-- A writer without a parity encoder whose cursor is inside its buffer. -/
structure Plain (writer : Writer) : Prop where
  ldpc : writer.ldpc = none
  inside : writer.offset ≤ writer.buffer.length

theorem Plain.append {writer : Writer} {bytes : Bytes} (plain : Plain writer)
    (room : writer.offset + bytes.length ≤ writer.buffer.length) : Plain (writer.append bytes) :=
  ⟨plain.ldpc, by rw [Writer.append_buffer_length room]; exact room⟩

/-- Whenever the step succeeds, it has written bytes whose bits satisfy `post`. -/
def Emits (step : Encode α) (post : α → List Bool → Prop) : Prop :=
  ∀ ⦃writer a after⦄, Plain writer → step.run writer = .ok (.ok a, after) →
    ∃ bytes, writer.offset + bytes.length ≤ writer.buffer.length ∧
      after = writer.append bytes ∧ post a (bitsOfBytes bytes)

theorem Emits.mono {step : Encode α} {post weaker : α → List Bool → Prop} (emits : Emits step post)
    (implies : ∀ a bits, post a bits → weaker a bits) : Emits step weaker := by
  intro writer a after plain run
  obtain ⟨bytes, room, same, holds⟩ := emits plain run
  exact ⟨bytes, room, same, implies a _ holds⟩

theorem emits_pure {a : α} {post : α → List Bool → Prop} (holds : post a []) :
    Emits (pure a) post := by
  intro writer b after plain run
  cases run
  exact ⟨[], plain.inside, (Writer.append_nil _).symm, holds⟩

/-- What the second step writes comes right after what the first one wrote. -/
theorem emits_bind {step : Encode α} {next : α → Encode β} {first : α → List Bool → Prop}
    {post : β → List Bool → Prop} (emits : Emits step first)
    (continues : ∀ a bits, first a bits → Emits (next a) fun b more => post b (bits ++ more)) :
    Emits (step >>= next) post := by
  intro writer b after plain run
  rw [run_bind] at run
  split at run
  · next a middle stepped =>
    obtain ⟨bytes, room, rfl, holds⟩ := emits plain stepped
    obtain ⟨more, fits, rfl, total⟩ := continues a _ holds (plain.append room) run
    rw [Writer.append_buffer_length room, Writer.append_offset] at fits
    refine ⟨bytes ++ more, by rw [List.length_append]; omega, Writer.append_append room, ?_⟩
    rwa [bitsOfBytes_append]
  · cases run
  · cases run

theorem emits_check {result : Except Fault α} :
    Emits (check result) fun a out => out = [] ∧ result = .ok a := by
  intro writer a after plain run
  cases result with
  | error => cases run
  | ok b =>
    cases run
    exact ⟨[], plain.inside, (Writer.append_nil _).symm, rfl, rfl⟩

theorem emits_fault {fault : Fault} {post : α → List Bool → Prop} :
    Emits (check (.error fault) : Encode α) post := nofun

theorem emits_throw {e : EncodeError} {post : α → List Bool → Prop} :
    Emits (throw e : Encode α) post := nofun

theorem emits_illTyped {field : Field} {post : α → List Bool → Prop} :
    Emits (illTyped field) post := emits_fault

end Encode

namespace Wire.Writer

theorem run_bind {α β : Type} (step : Write α) (next : α → Write β) (writer : Writer) :
    (step >>= next).run writer =
      match step.run writer with
      | (.ok a, middle) => (next a).run middle
      | (.error e, middle) => (.error e, middle) := by
  simp only [bind, ExceptT.bind, ExceptT.run, ExceptT.mk, StateT.bind]
  rcases step writer with ⟨_ | _, _⟩ <;> rfl

theorem get_run (writer : Writer) : (get : Write Writer).run writer = (.ok writer, writer) := rfl

theorem reserve_run (size : Nat) (writer : Writer) :
    (reserve size).run writer =
      if writer.remaining < size then (.error (.bufferTooSmall size writer.remaining), writer)
      else (.ok writer.offset, { writer with offset := writer.offset + size }) := by
  by_cases full : writer.remaining < size
  · simp only [reserve, run_bind, get_run, if_pos full]
    rfl
  · simp only [reserve, run_bind, get_run, if_neg full]
    rfl

theorem put_run (bytes : Bytes) (writer : Writer) :
    (put bytes).run writer =
      if writer.remaining < bytes.length then
        (.error (.bufferTooSmall bytes.length writer.remaining), writer)
      else (.ok (), writer.append bytes) := by
  rw [put, run_bind, reserve_run]
  by_cases full : writer.remaining < bytes.length
  · rw [if_pos full, if_pos full]
  · rw [if_neg full, if_neg full]
    rfl

theorem zeros_eq_put (size : Nat) : zeros size = put (List.replicate size 0) := by
  simp [zeros, put]

/-- Without an encoder a parity is written as zeros, if it can be written. -/
theorem parity_run {writer : Writer} (code : LdpcCode) (without : writer.ldpc = none) :
    (parity code).run writer =
      if code.isByteAligned = false ∨ writer.offset < code.messageBits / 8 then
        (.error (unsupported code), writer)
      else (zeros (code.parityBits / 8)).run writer := by
  by_cases aligned : code.isByteAligned = true
  · by_cases short : writer.offset < code.messageBits / 8
    · simp only [parity, aligned, Bool.not_true, Bool.false_eq_true, if_false, run_bind, get_run,
        if_pos short, false_or, Bool.true_eq_false]
      rfl
    · by_cases full : writer.remaining < code.parityBits / 8
      · simp only [parity, aligned, Bool.not_true, Bool.false_eq_true, if_false, run_bind, get_run,
          if_neg short, false_or, Bool.true_eq_false, reserve_run, if_pos full, zeros]
      · simp only [parity, aligned, Bool.not_true, Bool.false_eq_true, if_false, run_bind, get_run,
          if_neg short, false_or, Bool.true_eq_false, reserve_run, if_neg full, zeros, without]
        rfl
  · simp only [parity, aligned, Bool.not_false, if_true, run_bind, true_or]
    rfl

end Wire.Writer

namespace Encode

open Wire

variable {α β : Type}

theorem emits_put {bytes : Bytes} {post : Unit → List Bool → Prop}
    (holds : post () (bitsOfBytes bytes)) : Emits (write (Writer.put bytes)) post := by
  intro writer a after plain run
  have run : (Writer.put bytes).run writer = (.ok a, after) := Except.ok.inj run
  rw [Writer.put_run] at run
  split at run
  · cases run
  · next room =>
    cases run
    have inside := plain.inside
    unfold Writer.remaining at room
    exact ⟨bytes, by omega, rfl, holds⟩

theorem emits_zeros {size : Nat} {post : Unit → List Bool → Prop}
    (holds : post () (List.replicate (8 * size) false)) :
    Emits (write (Writer.zeros size)) post := by
  rw [Writer.zeros_eq_put]
  exact emits_put (by rwa [bitsOfBytes_zeros])

/-- Without an encoder a parity is written as zeros. -/
theorem emits_parity {code : LdpcCode} {post : Unit → List Bool → Prop}
    (holds : post () (List.replicate code.parityBits false)) :
    Emits (write (Writer.parity code)) post := by
  intro writer a after plain run
  have run : (Writer.parity code).run writer = (.ok a, after) := Except.ok.inj run
  rw [Writer.parity_run code plain.ldpc] at run
  split at run
  · cases run
  · next possible =>
    have whole : code.parityBits % 8 = 0 := by
      simp [LdpcCode.isByteAligned] at possible
      omega
    refine emits_zeros ?_ plain (congrArg Except.ok run)
    rwa [Nat.mul_div_cancel' (Nat.dvd_of_mod_eq_zero whole)]

/-- Steps in a row write their bits one after the other. -/
theorem emits_forM {items : List α} {step : α → Encode Unit} {bits : α → List Bool}
    {holds : α → Prop}
    (each : ∀ item ∈ items, Emits (step item) fun _ out => out = bits item ∧ holds item) :
    Emits (items.forM step) fun _ out =>
      out = items.flatMap bits ∧ ∀ item ∈ items, holds item := by
  induction items with
  | nil => exact emits_pure ⟨rfl, nofun⟩
  | cons item rest ih =>
    show Emits (step item >>= fun _ => rest.forM step) _
    refine emits_bind (each item List.mem_cons_self) fun _ first emitted => ?_
    refine (ih fun other member => each other (List.mem_cons_of_mem _ member)).mono
      fun _ more others => ?_
    obtain ⟨rfl, held⟩ := emitted
    obtain ⟨rfl, all⟩ := others
    exact ⟨rfl, List.forall_mem_cons.mpr ⟨held, all⟩⟩

/-- Steps that write nothing give the list of their results. -/
theorem emits_mapM {items : List α} {step : α → Encode β} {result : α → β} {holds : α → Prop}
    (each : ∀ item ∈ items, Emits (step item) fun b out =>
      out = [] ∧ b = result item ∧ holds item) :
    Emits (items.mapM step) fun list out =>
      out = [] ∧ list = items.map result ∧ ∀ item ∈ items, holds item := by
  induction items with
  | nil => exact emits_pure ⟨rfl, rfl, nofun⟩
  | cons item rest ih =>
    rw [List.mapM_cons]
    refine emits_bind (each item List.mem_cons_self) fun _ first emitted => ?_
    refine emits_bind (ih fun other member => each other (List.mem_cons_of_mem _ member))
      fun _ more others => emits_pure ?_
    obtain ⟨rfl, rfl, held⟩ := emitted
    obtain ⟨rfl, rfl, all⟩ := others
    exact ⟨rfl, rfl, List.forall_mem_cons.mpr ⟨held, all⟩⟩

end Encode

end PacketSpec
