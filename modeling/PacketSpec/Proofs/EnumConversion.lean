import PacketSpec.Proofs.Builder.Enum
import PacketSpec.Proofs.Codec.Failing
import PacketSpec.Proofs.Codec.Retention
import PacketSpec.Proofs.Codec.RoundTrip
import PacketSpec.Proofs.Codegen.Conversion
import PacketSpec.Proofs.Reached

/-! Numbers turn into values of an enumeration and back without loss. Of the values only those are
changed that hold the number of a member as unknown. So a field of an enumeration is written with
the bits that it was read from. -/
namespace PacketSpec

open Codegen Wire

def Enum.Has (e : Enum) : EnumValue → Prop
  | .named member => member ∈ e.members
  | .unknown _ => True

/-- The conversions that the declaration of the enumeration contains, from numbers and back. -/
def Enum.Declares (e : Enum) (into back : List Arm) : Prop :=
  ∃ decl, enumDecl e = .ok decl ∧
    Codegen.Declares decl (code "u64") [.word (escaped e.id)] into ∧
    Codegen.Declares decl [.word (escaped e.id)] (code "u64") back

structure Enum.Lossless (e : Enum) (into back : List Arm) : Prop where
  /-- A number becomes the same value as where a packet is read. -/
  reads : ∀ x, convert? into (.number x) = some (shown (escaped e.id) (e.ofNat x)) ∧
    e.Has (e.ofNat x)
  /-- A value becomes the same number as where a packet is written. -/
  writes : ∀ v, e.Has v → convert? back (shown (escaped e.id) v) = some (.number v.toNat)
  numbers : ∀ x, (convert? into (.number x)).bind (convert? back) = some (.number x)
  values : ∀ v, e.Has v → (∀ m ∈ e.members, v ≠ .unknown m.value) →
    (convert? back (shown (escaped e.id) v)).bind (convert? into) = some (shown (escaped e.id) v)
  members : ∀ m ∈ e.members,
    (convert? back (shown (escaped e.id) (.unknown m.value))).bind (convert? into) =
      some (shown (escaped e.id) (.named m))

theorem Enum.has_ofNat (e : Enum) (x : Nat) : e.Has (e.ofNat x) := by
  unfold Enum.ofNat
  cases found : e.members.find? (·.value == x) with
  | none => trivial
  | some member => exact List.mem_of_find?_eq_some found

/-- A value is found by its number, unless it is unknown and a member has the number. -/
theorem Enum.WellFormed.ofNat_toNat {e : Enum} (formed : e.WellFormed) {v : EnumValue}
    (has : e.Has v) (other : ∀ m ∈ e.members, v ≠ .unknown m.value) : e.ofNat v.toNat = v := by
  cases v with
  | named member => exact formed.ofNat_value has
  | unknown x =>
    have unnamed : e.members.find? (·.value == x) = none := by
      refine List.find?_eq_none.mpr fun m member same => other m member ?_
      rw [beq_iff_eq.mp same]
    simp [Enum.ofNat, EnumValue.toNat, unnamed]

/-- The names in the declaration of an enumeration differ. -/
theorem Enum.WellFormed.nodup_escaped {e : Enum} (formed : e.WellFormed) (made : e.Made)
    {decl : Code} (generated : enumDecl e = .ok decl) :
    (e.members.map fun m => escaped m.id).Nodup := by
  have names := nodup_memberNames formed made generated
  rw [variantNames_enumDecl generated] at names
  exact (List.nodup_append.mp names).1

theorem Enum.WellFormed.lossless {e : Enum} (formed : e.WellFormed) (made : e.Made) :
    ∃ into back, e.Declares into back ∧ e.Lossless into back := by
  obtain ⟨decl, generated⟩ := enumDecl_succeeds made
  obtain ⟨fromDeclared, toDeclared⟩ := enumDecl_declares generated
  have names := formed.nodup_escaped made generated
  have into (x : Nat) := convert?_fromNumber (escaped e.id) e x
  have back (v : EnumValue) (has : e.Has v) :
      convert? (toNumber (escaped e.id) e.members) (shown (escaped e.id) v) =
        some (.number v.toNat) := by
    cases v with
    | named member => exact convert?_toNumber_named names has
    | unknown x => exact convert?_toNumber_unknown _ _ x
  refine ⟨_, _, ⟨decl, generated, fromDeclared, toDeclared⟩,
    fun x => ⟨into x, e.has_ofNat x⟩, back, ?_, ?_, ?_⟩
  · intro x
    rw [into, Option.bind_some, back _ (e.has_ofNat x), Enum.toNat_ofNat]
  · intro v has other
    rw [back v has, Option.bind_some, into, formed.ofNat_toNat has other]
  · intro m member
    rw [back (.unknown m.value) trivial, Option.bind_some, into, EnumValue.toNat,
      formed.ofNat_value member]

namespace Builder

/-- An enumeration that was not known enters the model well formed. -/
theorem resolveEnum_adds {document : Document} {key id : String} {before after : Context}
    (fresh : ∀ e ∈ before.model.enums, e.key ≠ key)
    (run : Yields (resolveEnum document key) before id after) :
    ∃ e, e.key = key ∧ e.id = id ∧ after = before.addEnum e ∧ e.WellFormed ∧ e.Made := by
  have unknown : before.model.enums.find? (·.key == key) = none := by simpa using fresh
  simp only [resolveEnum, yields_bind, yields_get] at run
  obtain ⟨_, _, ⟨rfl, rfl⟩, run⟩ := run
  rw [unknown] at run
  simp only [yields_ite, yields_bind, yields_fail, false_and, exists_false, and_false,
    false_or] at run
  obtain ⟨valid, run⟩ := run
  split at run
  · exact (yields_fail run).elim
  · simp only [yields_bind, yields_modifyModel, yields_pure] at run
    obtain ⟨members, middle, read, _, _, rfl, rfl, rfl⟩ := run
    obtain ⟨rfl, formed⟩ := buildMembers_yields (Text.camelCase key) read
      ⟨by simp, by simp, by simp⟩
    refine ⟨_, rfl, rfl, rfl, formed, ?_, buildMembers_made read (by simp)⟩
    simpa using valid

end Builder

namespace Codec

/-- Whatever a field of the enumeration is read from, its value is written as the same bytes, or as
the same bits of a word that it shares with other fields. -/
structure Preserves (model : Model) (s : Struct) (field : Field) (e : Enum) : Prop where
  bytes : field.isPacked = false → ∀ bytes : Bytes, bytes.length = field.width / 8 →
    (∀ nested front rest,
      (decodeElement model nested field).run ⟨front ++ bytes ++ rest, front.length⟩ =
        .ok (.ok (.enum (e.ofNat (ofBigEndian bytes))),
          ⟨front ++ bytes ++ rest, (front ++ bytes).length⟩)) ∧
    ∀ nested writer, bytes.length ≤ writer.remaining →
      (encodeElement nested s field (.enum (e.ofNat (ofBigEndian bytes)))).run writer =
        .ok (.ok (), writer.append bytes)
  bits : field.isPacked = true → ∀ (word : Nat) (place : Packed Field), place.symbol = field →
    place.width = field.width → ∀ x, word >>> place.shift % 1 <<< field.width = x →
    (∀ parsed reader, (decodePacked model s word parsed place).run reader =
      .ok (.ok (parsed.store field (.enum (e.ofNat x))), reader)) ∧
    ∀ record writer, Record.get record field.id = .ok (.enum (e.ofNat x)) →
      (packedValue s record field).run writer = .ok (.ok x, writer)

variable {model : Model} {s : Struct} {field : Field} {e : Enum} {typeId : String}

theorem bigEndian_ofBigEndian (bytes : Bytes) :
    bigEndian bytes.length (ofBigEndian bytes) = bytes := by
  apply bitsOfBytes_injective
  rw [bitsOfBytes_bigEndian, bitsOfNat_ofBigEndian]

theorem checkRange_run {value : Nat} (narrow : field.width ≤ 64)
    (fits : value < 1 <<< field.width) : checkRange s field value = pure () := by
  rw [checkRange, if_neg (Nat.not_lt.mpr ((le_maxOfWidth_iff narrow).mpr fits))]

theorem preserves_of_formed (formed : field.WellFormed) (shape : field.shape = .enum typeId)
    (known : model.enum typeId = .ok e) : Preserves model s field e := by
  have narrow : field.width ≤ 64 := by
    have admits := formed.shape
    simp only [shape, Shape.Admits, List.mem_cons, List.not_mem_nil, or_false] at admits
    omega
  have free : field.fixed = none := by
    cases fixed : field.fixed with
    | none => rfl
    | some value => simpa [Field.Fixes, shape] using (formed.fixed value fixed).2
  constructor
  · intro wide bytes sized
    have whole := formed.whole wide (by simp [shape, Shape.isEnum])
    have fits : ofBigEndian bytes < 1 <<< field.width := by
      have bound := ofBigEndian_lt bytes
      rwa [sized, whole] at bound
    refine ⟨fun nested front rest => ?_, fun nested writer room => ?_⟩
    · simp only [decodeElement, shape]
      rw [Decode.check_bind known, run_bind, Decode.read_run, Decode.unsigned_run,
        Decode.take?_run front bytes rest sized]
      rfl
    · simp only [encodeElement, shape, Enum.toNat_ofNat]
      rw [checkRange_run narrow fits, pure_bind, ← sized, Writer.unsigned, bigEndian_ofBigEndian]
      change Except.ok ((Writer.put bytes).run writer) = _
      rw [Writer.put_run, if_neg (Nat.not_lt.mpr room)]
  · rintro packed word place rfl width x rfl
    refine ⟨fun parsed reader => ?_, fun record writer held => ?_⟩
    · simp only [decodePacked, free, shape]
      rw [Decode.check_bind known, width]
      rfl
    · -- the mask that reading applies is the range that writing checks
      have fits : word >>> place.shift % 1 <<< place.symbol.width < 1 <<< place.symbol.width := by
        rw [Nat.one_shiftLeft]
        exact Nat.mod_lt _ (Nat.two_pow_pos _)
      simp only [packedValue, free, held]
      change (do
        checkRange s place.symbol (e.ofNat _).toNat
        return (e.ofNat _).toNat : Encode Nat).run writer = _
      rw [Enum.toNat_ofNat, checkRange_run narrow fits]
      rfl

end Codec

/-- The conversions of every enumeration that is accepted lose nothing, and a field of it is written
with the bits that it was read from. -/
theorem enum_conversions_lossless (document : Document) :
    (∀ key context id after, (∀ e ∈ context.model.enums, e.key ≠ key) →
      (Builder.resolveEnum document key).run context = (.ok id, after) →
      ∃ e, e.key = key ∧ e.id = id ∧ after = context.addEnum e ∧
        ∃ into back, e.Declares into back ∧ e.Lossless into back) ∧
    ∀ window source model, analyze document window source = .ok model →
      ∀ s ∈ model.structs, ∀ field ∈ s.fields, ∀ typeId, field.shape = .enum typeId →
        ∃ e ∈ model.enums, e.id = typeId ∧
          (∃ into back, e.Declares into back ∧ e.Lossless into back) ∧
          Codec.Preserves model s field e := by
  constructor
  · intro key context id after fresh run
    obtain ⟨e, sameKey, sameId, added, formed, made⟩ := Builder.resolveEnum_adds fresh run
    exact ⟨e, sameKey, sameId, added, formed.lossless made⟩
  · intro window source model accepted s member field inside typeId shape
    have formed := coherent_of_analyze accepted
    obtain ⟨earlier, later, place⟩ := List.append_of_mem member
    have fields := (formed.structs earlier s later place).fields
    have resolved := Codec.resolved_of_formed fields formed.enums inside
    obtain ⟨e, found, enum⟩ := resolved.enums typeId shape
    have listed := List.mem_of_find?_eq_some found
    have named : e.id = typeId := by simpa using List.find?_some found
    refine ⟨e, listed, named, enum.lossless ((made_of_analyze accepted).enums e listed), ?_⟩
    exact Codec.preserves_of_formed (fields.each field inside) shape (by rw [Model.enum, found])

/-- The modes off and on, of the numbers zero and one, are declared with conversions of which the
first knows no mode of number six, and which together make the unknown mode of number one on. -/
theorem sampleMode_lossless : ∃ e ∈ sampleModel.enums, e.id = "Mode" ∧
    ∃ into back, e.Declares into back ∧
      convert? into (.number 6) = some (.holding "Mode" "Unknown" 6) ∧
      convert? back (.variant "Mode" "Off") = some (.number 0) ∧
      (convert? back (.holding "Mode" "Unknown" 1)).bind (convert? into) =
        some (.variant "Mode" "On") := by
  obtain ⟨e, listed, named, ⟨into, back, declares, lossless⟩, -⟩ :=
    (enum_conversions_lossless sampleDocument).2 32 "sample" sampleModel analyze_sample
      sampleStruct (.tail _ (.head _)) _ (.tail _ (.head _)) "Mode" rfl
  obtain rfl := List.mem_singleton.mp listed
  refine ⟨_, listed, named, into, back, declares, (lossless.reads 6).1, ?_, ?_⟩
  · exact lossless.writes (.named ⟨"Off", 0⟩) (.head _)
  · exact lossless.members ⟨"On", 1⟩ (.tail _ (.head _))

end PacketSpec
