import PacketSpec.Proofs.Codec.Failing

/-!
Which inputs make reading leave the range of sizes: those in which it comes to a padding or a
payload whose count, multiplied with the bytes of an element, is too large. The size is computed
before it is compared with the input that is left.
-/
namespace PacketSpec

open Wire Decode

namespace Model

variable {model : Model} {window : Nat} {s : Struct} {reader : Reader}

/-- Reading a structure comes to a size that is too large, in itself or in one of its parts. -/
inductive Overflows (model : Model) (window : Nat) : Struct → Reader → Prop
  | size {s : Struct} {field : Field} {index count : Nat} {reader began : Reader}
      {parsed : Codec.Parsed} (reads : model.ReadsUpTo window s field reader parsed began)
      (sized : field.shape = .padding ∨ field.shape = .payload)
      (repetition : field.repetition = .fieldRef index)
      (counted : parsed.record.countAt s index = .ok count)
      (large : Size.bound ≤ count * (field.width / 8)) : Overflows model window s reader
  | part {s nested : Struct} {field : Field} {reader began reached : Reader}
      {parsed : Codec.Parsed} (reads : model.ReadsUpTo window s field reader parsed began)
      (member : nested ∈ model.structs) (shape : field.shape = .struct nested.id)
      (visits :
        Codec.Visits (model.decodeFrom window nested.id) s parsed.record field began reached)
      (overflows : Overflows model window nested reached) : Overflows model window s reader

def OverflowsIn (model : Model) (window : Nat) (typeId : String) (reader : Reader) : Prop :=
  ∃ nested ∈ model.structs, nested.id = typeId ∧ model.Overflows window nested reader

theorem WellFormed.decodeFrom_eq (formed : model.WellFormed window) (member : s ∈ model.structs) :
    model.decodeFrom window s.id =
      Prod.fst <$> Codec.decodeStruct model window (model.decoders window) s := by
  rw [decodeFrom, check_bind (formed.decoder_eq member)]

theorem WellFormed.decoders_eq (formed : model.WellFormed window) (member : s ∈ model.structs) :
    model.decoders window s.id =
      some (Codec.decodeStruct model window (model.decoders window) s) :=
  Model.meaning_eq_ok.mp (formed.decoder_eq member)

/-- A field fails where its size overflows or where one of its structures does. -/
theorem WellFormed.overflows_iff (formed : model.WellFormed window) (member : s ∈ model.structs) :
    (∃ front field back parsed began,
      Codec.layout window s = .ok (front ++ .aligned field :: back) ∧
      (front.foldlM (Codec.decodeSegment model (model.decoders window) s) {}).run reader =
        .ok (.ok parsed, began) ∧
      Codec.fieldFails (model.decoders window) (model.OverflowsIn window) s parsed.record field
        began) ↔ model.Overflows window s reader := by
  constructor
  · rintro ⟨front, field, back, parsed, began, laid, run, fails⟩
    have reads : model.ReadsUpTo window s field reader parsed began := ⟨front, back, laid, run⟩
    have own (sized : field.shape = .padding ∨ field.shape = .payload)
        (fails : (∃ index, field.repetition = .fieldRef index) ∧
          Size.bound ≤ parsed.record.repeats s field * (field.width / 8)) :
        model.Overflows window s reader := by
      obtain ⟨⟨index, repetition⟩, large⟩ := fails
      obtain ⟨count, -, counted, -⟩ := formed.count_of_readsUpTo member reads repetition
      exact .size reads sized repetition counted large
    unfold Codec.fieldFails at fails
    split at fails
    · next shape => exact own (.inl shape) fails
    · next shape => exact own (.inr shape) fails
    · next typeId shape =>
      obtain ⟨decoder, reached, known, visits, nested, inside, rfl, overflows⟩ := fails
      cases (formed.decoders_eq inside).symm.trans known
      rw [← formed.decodeFrom_eq inside] at visits
      exact .part reads inside shape visits overflows
    · cases fails
  · intro overflows
    cases overflows with
    | @size _ field index count _ began parsed reads sized repetition counted large =>
      obtain ⟨front, back, laid, run⟩ := reads
      have same := Codec.repeats_fieldRef repetition counted
      refine ⟨front, field, back, parsed, began, laid, run, ?_⟩
      rcases sized with shape | shape <;>
        simpa [Codec.fieldFails, shape, repetition, same] using large
    | @part _ nested field _ began reached parsed reads inside shape visits overflows =>
      obtain ⟨front, back, laid, run⟩ := reads
      rw [formed.decodeFrom_eq inside] at visits
      refine ⟨front, field, back, parsed, began, laid, run, ?_⟩
      simp only [Codec.fieldFails, shape]
      exact ⟨_, reached, formed.decoders_eq inside, visits, nested, inside, rfl, overflows⟩

/-- By induction on the structures before it, since its parts are among them. -/
theorem WellFormed.decodeStruct_failsAt (formed : model.WellFormed window) (made : model.Made)
    {structs front : List Struct} (place : model.structs.reverse = front ++ structs) :
    ∀ s ∈ structs, FailsAt (model.Overflows window s)
      (Codec.decodeStruct model window (model.decoders window) s) := by
  induction structs generalizing front with
  | nil => simp
  | cons s earlier ih =>
    have before := @ih (front ++ [s]) (by simp [place])
    have split : model.structs = earlier.reverse ++ s :: front.reverse := by
      rw [← List.reverse_reverse model.structs, place]
      simp
    have member : s ∈ model.structs := by simp [split]
    have sound := formed.structs earlier.reverse s front.reverse split
    have parts (field : Field) (inside : field ∈ s.fields) :
        Codec.PartFails (model.decoders window) (model.OverflowsIn window) field := by
      intro typeId shape
      obtain ⟨-, nested, early, rfl, -⟩ := sound.fields.structs field inside typeId shape
      have among : nested ∈ model.structs := by simp [split, List.mem_reverse.mp early]
      refine ⟨_, formed.decoders_eq among, (before nested (List.mem_reverse.mp early)).congr ?_⟩
      intro reader
      constructor
      · intro overflows
        exact ⟨nested, among, rfl, overflows⟩
      · rintro ⟨other, listed, same, overflows⟩
        rwa [Codec.struct_eq_of_id formed among listed same.symm]
    intro other inside
    rcases List.mem_cons.mp inside with rfl | earlier
    · have fails := Codec.decodeStruct_failsAt parts sound formed.enums
        (made.structs other member).fields
      exact fails.congr fun reader => formed.overflows_iff member
    · exact before other earlier

end Model

namespace Model

variable {model : Model} {window : Nat} {s : Struct} {reader : Reader}

end Model

end PacketSpec
