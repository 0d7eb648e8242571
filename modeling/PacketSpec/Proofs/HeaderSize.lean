import PacketSpec.Codec.Packet
import PacketSpec.Proofs.Codec.Encoding
import PacketSpec.Proofs.Codec.Reading
import PacketSpec.Proofs.Codegen.Conversion
import PacketSpec.Proofs.Codegen.ReaderCalls
import PacketSpec.Proofs.Reached

/-! The header size of a packet is found from the descriptor at its start. The code that stands on
the wire, the one that is registered and the one that is looked up agree, whether or not a code has
the flag of 8-bit descriptors, and no two packets share one. -/
namespace PacketSpec

open Wire Decode Format

theorem clearFlag_of_lt {code : Nat} (small : code < 1 <<< 16) : clearFlag code = code := by
  have limit : (1 : Nat) <<< 16 = 65536 := rfl
  have flag : lsbFlag = 2147483648 := rfl
  rw [clearFlag, flag]
  omega

theorem clearFlag_clearFlag (code : Nat) : clearFlag (clearFlag code) = clearFlag code :=
  Nat.mod_mod code lsbFlag

theorem wireCode_lt (descriptor : Nat) : wireCode descriptor < 1 <<< 16 :=
  Nat.mod_lt _ (by decide)

theorem wireCode_of_lt {code : Nat} (small : code < 1 <<< 16) : wireCode code = code :=
  Nat.mod_eq_of_lt small

/-- Without bits between the code and the flag, the code is all but the flag. -/
theorem wireCode_eq_clearFlag {descriptor : Nat}
    (zero : ∀ i, 16 ≤ i → i ≤ 30 → descriptor.testBit i = false) :
    wireCode descriptor = clearFlag descriptor := by
  have code : wireCode descriptor = descriptor % 2 ^ 16 := rfl
  have flagless : clearFlag descriptor = descriptor % 2 ^ 31 := rfl
  rw [code, flagless]
  apply Nat.eq_of_testBit_eq
  intro i
  rw [Nat.testBit_mod_two_pow, Nat.testBit_mod_two_pow]
  by_cases low : i < 16
  · simp [low, show i < 31 by omega]
  · by_cases high : i < 31
    · simp [low, zero i (by omega) (by omega)]
    · simp [low, high]

theorem clearFlag_flagged {code : Nat} (small : code < 1 <<< 16) :
    clearFlag (code ||| lsbFlag) = code := by
  have flagless : clearFlag (code ||| lsbFlag) = (code ||| 2 ^ 31) % 2 ^ 31 := rfl
  rw [flagless, Nat.or_mod_two_pow, Nat.mod_self, Nat.or_zero]
  exact clearFlag_of_lt small

theorem wireCode_flagged (code : Nat) : wireCode (code ||| lsbFlag) = wireCode code := by
  have flagged : wireCode (code ||| lsbFlag) = (code ||| 2 ^ 31) % 2 ^ 16 := rfl
  rw [flagged, Nat.or_mod_two_pow]
  exact Nat.or_zero _

theorem headerSize?_clearFlag (model : Model) (code : Nat) :
    model.headerSize? (clearFlag code) = model.headerSize? code := by
  simp only [Model.headerSize?, clearFlag_clearFlag]

/-- All entries of one code say the same, so the first one counts. -/
theorem lookup_filterMap (f : Nat → Option Nat) (codes : List Nat) (code : Nat) :
    (codes.filterMap fun c => (f c).map fun size => (c, size)).lookup code =
      if code ∈ codes then f code else none := by
  induction codes with
  | nil => rfl
  | cons first rest ih =>
    rw [List.filterMap_cons]
    cases known : f first with
    | none =>
      by_cases same : code = first
      · subst same
        simp [ih, known]
      · simp [ih, same]
    | some size =>
      rw [Option.map_some, List.lookup_cons]
      by_cases same : code = first
      · subst same
        simp [known]
      · simp [ih, same, beq_eq_false_iff_ne.mpr same]

variable {model : Model}

theorem Model.lookup_headerSizes (model : Model) (code : Nat) :
    model.headerSizes.lookup code =
      if code ∈ model.descriptors.entries.map (fun entry => clearFlag entry.2) then
        model.headerSize? code
      else none := by
  rw [← lookup_filterMap, List.filterMap_map]
  simp only [Model.headerSizes, Function.comp_def, headerSize?_clearFlag]

def Struct.code? (s : Struct) : Option Nat := s.descriptor.map clearFlag

/-- The structures that the packets of a range have. -/
def Model.packets (model : Model) : List Struct := model.toplevel.filter (·.role == .packet)

theorem Model.mem_packets {s : Struct} :
    s ∈ model.packets ↔ s ∈ model.toplevel ∧ s.role = .packet := by
  simp [Model.packets]

theorem Model.mem_of_mem_packets {s : Struct} (member : s ∈ model.packets) : s ∈ model.structs :=
  List.mem_of_mem_filter (List.mem_of_mem_filter member)

theorem Model.headerSize?_eq (model : Model) (code : Nat) :
    model.headerSize? code =
      match model.packets.find? fun s => s.code? == some (clearFlag code) with
      | some packet => some packet.headerSize
      | none => ((model.templated.find? (·.descriptor == clearFlag code)).bind fun t =>
          model.struct? t.templateId).map Struct.headerSize := rfl

/-- The codes that are registered are those of the structures and of the templated descriptors. -/
theorem Model.Made.codes_perm (made : model.Made) :
    (model.descriptors.entries.map fun entry => clearFlag entry.2).Perm
      (model.structs.filterMap Struct.code? ++
        model.templated.map fun t => clearFlag t.descriptor) := by
  have mapped := made.descriptors.map fun entry => clearFlag entry.2
  rw [List.map_append, List.map_filterMap, List.map_map] at mapped
  have same : (fun s : Struct => s.registration.map fun entry => clearFlag entry.2) =
      Struct.code? := by
    funext s
    simp [Struct.registration, Struct.code?, Function.comp_def]
  rw [same] at mapped
  exact mapped

theorem Model.Made.codes_nodup (made : model.Made) :
    (model.structs.filterMap Struct.code? ++
      model.templated.map fun t => clearFlag t.descriptor).Nodup :=
  made.codes_perm.nodup_iff.mp made.codes

/-- A code that is looked up finds its packet, since no other structure has that code. -/
theorem Model.Made.headerSize?_packet (made : model.Made) {s : Struct} (member : s ∈ model.packets)
    {code : Nat} (coded : s.code? = some (clearFlag code)) :
    model.headerSize? code = some s.headerSize := by
  have distinct := (List.nodup_append.mp made.codes_nodup).1
  rw [Model.headerSize?_eq]
  cases found : model.packets.find? fun s => s.code? == some (clearFlag code) with
  | none =>
    have different := List.find?_eq_none.mp found s member
    exact absurd (beq_iff_eq.mpr coded) different
  | some other =>
    have sameCode := List.find?_some found
    rw [beq_iff_eq] at sameCode
    have listed := List.mem_of_find?_eq_some found
    rw [eq_of_nodup_filterMap distinct (Model.mem_of_mem_packets listed)
      (Model.mem_of_mem_packets member) sameCode coded]

theorem find?_code_eq_none {structs : List Struct} {code : Nat}
    (other : ∀ s ∈ structs, s.code? ≠ some code) :
    structs.find? (fun s => s.code? == some code) = none := by
  rw [List.find?_eq_none]
  intro s listed same
  exact other s listed (beq_iff_eq.mp same)

theorem Model.Made.clearFlag_templated (made : model.Made) {t : TemplatedStruct}
    (member : t ∈ model.templated) : clearFlag t.descriptor = t.descriptor := by
  have small := (made.templated t member).1.descriptor
  have limit : (1 : Nat) <<< 16 = 65536 := rfl
  exact clearFlag_of_lt (by omega)

/-- The code of a templated descriptor belongs to no structure and to no other template. -/
theorem Model.Made.headerSize?_templated (made : model.Made) {t : TemplatedStruct}
    (member : t ∈ model.templated) :
    model.headerSize? t.descriptor = (model.struct? t.templateId).map Struct.headerSize := by
  obtain ⟨-, distinct, apart⟩ := List.nodup_append.mp made.codes_nodup
  have noPacket :
      model.packets.find? (fun s => s.code? == some (clearFlag t.descriptor)) = none := by
    apply find?_code_eq_none
    intro s listed coded
    have known := List.mem_filterMap.mpr ⟨s, Model.mem_of_mem_packets listed, coded⟩
    exact apart _ known _ (List.mem_map_of_mem member) rfl
  have found : model.templated.find? (·.descriptor == t.descriptor) = some t := by
    apply find?_of_nodup _ member
    rw [← List.map_congr_left fun u listed => made.clearFlag_templated listed]
    exact distinct
  rw [Model.headerSize?_eq, noPacket, made.clearFlag_templated member, found]
  rfl

/-- A code that no packet and no templated descriptor has is unknown. -/
theorem Model.headerSize?_unknown {code : Nat}
    (noPacket : ∀ s ∈ model.packets, s.code? ≠ some (clearFlag code))
    (noTemplated : ∀ t ∈ model.templated, t.descriptor ≠ clearFlag code) :
    model.headerSize? code = none := by
  have templated : model.templated.find? (·.descriptor == clearFlag code) = none := by
    rw [List.find?_eq_none]
    intro t listed same
    exact noTemplated t listed (beq_iff_eq.mp same)
  rw [Model.headerSize?_eq, find?_code_eq_none noPacket, templated]
  rfl

/-- Every code with a header size is registered, so the lookup by registered codes misses none. -/
theorem Model.Made.headerSizeOf?_eq (made : model.Made) (descriptor : Nat) :
    model.headerSizeOf? descriptor = model.headerSize? (wireCode descriptor) := by
  have plain := clearFlag_of_lt (wireCode_lt descriptor)
  rw [Model.headerSizeOf?, Model.lookup_headerSizes]
  split
  · rfl
  · next unregistered =>
    rw [made.codes_perm.mem_iff, List.mem_append, not_or] at unregistered
    obtain ⟨noStruct, noTemplated⟩ := unregistered
    symm
    apply Model.headerSize?_unknown
    · intro s member coded
      rw [plain] at coded
      exact noStruct (List.mem_filterMap.mpr ⟨s, Model.mem_of_mem_packets member, coded⟩)
    · intro t member same
      apply noTemplated
      rw [List.mem_map]
      exact ⟨t, member, by rw [same, clearFlag_clearFlag, plain]⟩

/-- The first field of a structure with a registered descriptor is fixed to its code. -/
theorem Struct.WellFormed.registered {window : Nat} {earlier : List Struct} {s : Struct}
    (formed : s.WellFormed window model earlier) {descriptor : Nat}
    (registered : s.descriptor = some descriptor) :
    ∃ first rest code, s.fields = first :: rest ∧ first.shape = .descriptor ∧
      first.fixed = some code ∧
      descriptor = if first.width = 8 then code ||| lsbFlag else code := by
  rw [formed.descriptor] at registered
  cases fields : s.fields with
  | nil => simp [fields, registeredBy] at registered
  | cons first rest =>
    rw [fields, registeredBy] at registered
    split at registered
    · next shape =>
      obtain ⟨code, fixed, same⟩ := Option.map_eq_some_iff.mp registered
      exact ⟨first, rest, code, rfl, shape, fixed, same.symm⟩
    · cases registered

/-- A code of 16 bits, of which only the upper byte counts in a field of 8 bits. -/
structure IsCode (width code : Nat) : Prop where
  admitted : width ∈ [8, 16, 32]
  small : code < 1 <<< 16
  upper : width = 8 → code % 256 = 0

theorem Field.WellFormed.isCode {field : Field} {code : Nat} (formed : field.WellFormed)
    (shape : field.shape = .descriptor) (fixed : field.fixed = some code) :
    IsCode field.width code := by
  have admits := formed.shape
  have fixes := (formed.fixed code fixed).2
  rw [shape] at admits fixes
  have limit : maxOfWidth 16 = 65535 := rfl
  have bound : (1 : Nat) <<< 16 = 65536 := rfl
  exact ⟨admits.1, by omega, fixes.2⟩

/-- A descriptor field reads the bits of a fixed code as the descriptor of that code. -/
theorem parses_descriptor {field : Field} {code : Nat} (shape : field.shape = .descriptor)
    (isCode : IsCode field.width code) (model : Model) (nested : String → Option Codec.Decoder)
    (s : Struct) (record : Record) :
    Parses (Codec.decodeStored model nested s record field) (fixedBits field code)
      (.descriptor (if field.width = 8 then code ||| lsbFlag else code)) := by
  have small := isCode.small
  have limit : (1 : Nat) <<< 16 = 65536 := rfl
  have whole : 8 * (field.width / 8) = field.width := by
    have width := isCode.admitted
    simp only [List.mem_cons, List.not_mem_nil, or_false] at width
    omega
  unfold Codec.decodeStored fixedBits
  simp only [shape, true_and]
  by_cases narrow : field.width = 8
  · have upper := isCode.upper narrow
    have number : code >>> 8 % 1 <<< field.width = code / 256 := by
      have range : (1 : Nat) <<< 8 = 256 := rfl
      rw [narrow, Nat.shiftRight_eq_div_pow, range]
      omega
    have back : (code / 256) <<< 8 = code := by
      rw [Nat.shiftLeft_eq]
      omega
    have read := (parses_unsigned whole (code >>> 8)).return fun n =>
      Value.descriptor (if field.width == 8 then n <<< 8 ||| lsbFlag else n)
    rw [number] at read
    simpa [narrow, back] using read
  · have number : code % 1 <<< field.width = code := by
      apply Nat.mod_eq_of_lt
      have width := isCode.admitted
      simp only [List.mem_cons, List.not_mem_nil, or_false] at width
      rcases width with width | width | width
      · exact absurd width narrow
      · rw [width]
        exact small
      · rw [width]
        have range : (1 : Nat) <<< 32 = 4294967296 := rfl
        omega
    have read := (parses_unsigned whole code).return fun n =>
      Value.descriptor (if field.width == 8 then n <<< 8 ||| lsbFlag else n)
    rw [number] at read
    simpa [narrow] using read

/-- The descriptor of a packet is read from the start of its bytes by any descriptor field of the
same width. -/
theorem decodeStored_start {window : Nat} (formed : model.WellFormed window) {s : Struct}
    (member : s ∈ model.structs) {descriptor : Nat} (registered : s.descriptor = some descriptor)
    {value : Value} {bytes : Bytes}
    (encoded : model.encodeToBytes window s.id value = .ok (.ok bytes)) :
    ∃ first, s.fields.head? = some first ∧ ∀ field : Field, field.shape = .descriptor →
      field.width = first.width → ∀ nested reading record,
        (Codec.decodeStored model nested reading record field).run { bytes } =
          .ok (.ok (.descriptor descriptor), { bytes, offset := field.width / 8 }) := by
  obtain ⟨earlier, later, place⟩ := List.append_of_mem member
  have structFormed := formed.structs earlier s later place
  obtain ⟨first, rest, code, fields, shape, fixed, rfl⟩ := structFormed.registered registered
  have isCode := (structFormed.fields.each first (by simp [fields])).isCode shape fixed
  refine ⟨first, by simp [fields], ?_⟩
  intro field sameShape sameWidth nested reading record
  obtain ⟨bits, fits⟩ := Model.encodeToBytes_bits formed encoded
  rw [Model.fits, Model.everyRecord, formed.meaningOr_self place] at fits
  cases value with
  | record stored =>
    rw [formed.wireBits_record member, fields, List.flatMap_cons, fieldBits_fixed fixed
      (by simp [shape]) (by simp [shape]) (by simp [shape, Shape.isParity])] at bits
    have sameBits : fixedBits first code = fixedBits field code := by
      simp [fixedBits, shape, sameShape, sameWidth]
    have parses := parses_descriptor sameShape (sameWidth ▸ isCode) model nested reading record
    rw [sameBits] at bits
    obtain ⟨front, back, rfl, same, -⟩ := exists_append_of_bitsOfBytes_eq parses.whole bits
    have run := parses.reads [] front back same
    have sized : front.length = field.width / 8 := by
      rw [length_of_bits same, fixedBits, length_bitsOfNat]
    simpa [sized, sameWidth] using run
  | _ => cases fits

/-- The registered descriptor of a packet is its code, with the flag or without it. -/
theorem Struct.WellFormed.code {window : Nat} {earlier : List Struct} {s : Struct}
    (formed : s.WellFormed window model earlier) {descriptor : Nat}
    (registered : s.descriptor = some descriptor) :
    s.code? = some (wireCode descriptor) := by
  obtain ⟨first, rest, code, fields, shape, fixed, rfl⟩ := formed.registered registered
  have small := ((formed.fields.each first (by simp [fields])).isCode shape fixed).small
  rw [Struct.code?, registered, Option.map_some]
  split
  · rw [clearFlag_flagged small, wireCode_flagged, wireCode_of_lt small]
  · rw [clearFlag_of_lt small, wireCode_of_lt small]

namespace Codegen

/-- The arms of a match that have a code for a pattern and a size for a result. -/
def sizeArms : Code → List (Nat × Nat)
  | .word key :: .mark '=' :: .mark '>' :: .word "Some" :: .mark '(' :: .word size :: .mark ')' ::
      .mark ',' :: rest =>
    (literal? key).toList.map (fun code => (code, Text.ofDigits 10 size.toList)) ++ sizeArms rest
  | _ :: rest => sizeArms rest
  | [] => []

theorem sizeArms_arm (value size : Nat) (rest : Code) :
    sizeArms (hexNumber value ++ code "=> Some" ++ parens (number size) ++ code "," ++ rest) =
      (value, size) :: sizeArms rest := by
  have spelled : hexNumber value ++ code "=> Some" ++ parens (number size) ++ code "," ++ rest =
      .word (Text.hex value) :: .mark '=' :: .mark '>' :: .word "Some" :: .mark '(' ::
        .word (Text.decimal size) :: .mark ')' :: .mark ',' :: rest := rfl
  have key : literal? (Text.hex value) = some value := by
    simp [literal?, Text.hex, ofDigits_hexDigits]
  have result : Text.ofDigits 10 (Text.decimal size).toList = size := by
    rw [Text.decimal, String.toList_ofList]
    exact Cell.ofDigits_toDigits (by decide) (by decide) size
  rw [spelled, sizeArms, key, result]
  rfl

/-- The lookup has one arm for each known header size. -/
theorem sizeArms_headerSizeLookup (model : Model) :
    sizeArms (headerSizeLookup model) = model.headerSizes := by
  have arms (sizes : List (Nat × Nat)) (rest : Code) :
      sizeArms ((sizes.flatMap fun entry =>
        hexNumber entry.1 ++ code "=> Some" ++ parens (number entry.2) ++ code ",") ++ rest) =
      sizes ++ sizeArms rest := by
    induction sizes with
    | nil => rfl
    | cons entry sizes ih =>
      rw [List.flatMap_cons, List.append_assoc, sizeArms_arm, ih]
      rfl
  unfold headerSizeLookup
  dsimp only
  split
  · next empty =>
    have listed := arms model.headerSizes []
    rw [List.isEmpty_iff.mp empty] at listed
    have unknown : model.headerSizes = [] := by simpa [sizeArms] using listed.symm
    rw [unknown]
    rfl
  · have inside (block : Code) : sizeArms
        (docComment " Header size in bytes of the packets with the given descriptor," ++
          docComment " the 8-bit flag is ignored." ++
          code "pub fn header_size(descriptor: PktDescriptor) -> Option<usize>" ++
          braces (code "match descriptor.code()" ++ braces block)) =
        sizeArms (block ++ [.mark '\x7d'] ++ [.mark '\x7d']) := rfl
    rw [inside, List.append_assoc, List.append_assoc, arms]
    exact List.append_nil _

end Codegen

/-- The header size of every packet follows from the descriptor that is read at its start, that of a
templated descriptor is its template's, no other code has one, and the flag makes no difference. The
generated lookup and the generated decoders do the same. -/
theorem headerSizeOf?_of_wire {document : Document} {window : Nat} {source : String} {model : Model}
    (accepted : analyze document window source = .ok model) :
    (∀ s ∈ model.toplevel, s.role = .packet → ∀ descriptor, s.descriptor = some descriptor →
      model.headerSizeOf? descriptor = some s.headerSize ∧
      ∀ value bytes, model.encodeToBytes window s.id value = .ok (.ok bytes) →
        ∃ first, s.fields.head? = some first ∧ ∀ field : Field, field.shape = .descriptor →
          field.fixed = none → field.width = first.width → ∀ nested reading record,
            (Codec.decodeStored model nested reading record field).run { bytes } =
              .ok (.ok (.descriptor descriptor), { bytes, offset := field.width / 8 })) ∧
    (∀ t ∈ model.templated, ∃ s ∈ model.structs, s.id = t.templateId ∧
      model.headerSizeOf? t.descriptor = some s.headerSize) ∧
    (∀ code < 2 ^ 16,
      (∀ s ∈ model.toplevel, s.role = .packet → s.descriptor.map clearFlag ≠ some code) →
      (∀ t ∈ model.templated, t.descriptor ≠ code) → model.headerSizeOf? code = none) ∧
    (∀ descriptor, (∀ i, 16 ≤ i → i ≤ 30 → descriptor.testBit i = false) →
      model.headerSizeOf? descriptor = model.headerSize? descriptor) ∧
    (∀ descriptor, (Codegen.sizeArms (Codegen.headerSizeLookup model)).lookup
      (wireCode descriptor) = model.headerSizeOf? descriptor) ∧
    ∀ s ∈ model.structs, s.DecoderAgrees model window := by
  have formed : model.WellFormed window :=
    { coherent_of_analyze accepted with names := names_of_analyze accepted }
  have made := made_of_analyze accepted
  refine ⟨?_, ?_, ?_, ?_, ?_, ?_⟩
  · intro s member packet descriptor registered
    have inModel := List.mem_of_mem_filter member
    obtain ⟨earlier, later, place⟩ := List.append_of_mem inModel
    have coded := (formed.structs earlier s later place).code registered
    constructor
    · rw [made.headerSizeOf?_eq]
      apply made.headerSize?_packet (Model.mem_packets.mpr ⟨member, packet⟩)
      rw [coded, clearFlag_of_lt (wireCode_lt descriptor)]
    · intro value bytes encoded
      obtain ⟨first, head, reads⟩ := decodeStored_start formed inModel registered encoded
      exact ⟨first, head, fun field shape _ width => reads field shape width⟩
  · intro t member
    obtain ⟨⟨-, small⟩, s, inModel, named⟩ := made.templated t member
    have limit : (1 : Nat) <<< 16 = 65536 := rfl
    have code : wireCode t.descriptor = t.descriptor := wireCode_of_lt (by omega)
    have distinct := (List.nodup_append.mp formed.names).2.1
    refine ⟨s, inModel, named, ?_⟩
    rw [made.headerSizeOf?_eq, code, made.headerSize?_templated member, Model.struct?, ← named,
      find?_of_nodup distinct inModel]
    rfl
  · intro code small noPacket noTemplated
    rw [made.headerSizeOf?_eq, wireCode_of_lt small]
    apply Model.headerSize?_unknown
    · intro s member
      obtain ⟨member, packet⟩ := Model.mem_packets.mp member
      rw [clearFlag_of_lt small]
      exact noPacket s member packet
    · intro t member
      rw [clearFlag_of_lt small]
      exact noTemplated t member
  · intro descriptor zero
    rw [made.headerSizeOf?_eq, wireCode_eq_clearFlag zero, headerSize?_clearFlag]
  · intro descriptor
    rw [Codegen.sizeArms_headerSizeLookup, Model.headerSizeOf?]
  · intro s member
    obtain ⟨earlier, later, place⟩ := List.append_of_mem member
    exact (formed.structs earlier s later place).decoderAgrees (apart_of_analyze accepted member)

def registryDocument : Document where
  ranges := [⟨"'0x0100':'0x0101'", "#alarms"⟩]
  templates := [⟨"Generic", "#generic"⟩]
  structs := [
    ("0x0100", [⟨"u(8)", "alarm_descriptor", "'0x01'"⟩, ⟨"u(16)", "level", ""⟩]),
    ("0x0101", [⟨"'0x0101'", "status_descriptor", "[[#generic]]"⟩]),
    ("Generic", [⟨"u(16)", "generic_descriptor", ""⟩, ⟨"u(32)", "length", ""⟩])]

def alarmStruct : Struct where
  key := "0x0100"
  id := "Alarm"
  kind := "alarm"
  role := .packet
  fields := [
    ⟨"alarm_descriptor", .descriptor, 8, .none, some 0x100, false⟩,
    ⟨"level", .scalar false, 16, .none, none, false⟩]
  sizeBits := 24
  descriptor := some 0x80000100

def registryModel : Model where
  source := "registry"
  structs := [
    { key := "Generic", id := "Generic", kind := "generic", role := .template
      fields := [
        ⟨"generic_descriptor", .descriptor, 16, .none, none, false⟩,
        ⟨"length", .scalar false, 32, .none, none, false⟩]
      sizeBits := 48, descriptor := none },
    alarmStruct]
  templated := [⟨"status", 0x101, "Generic"⟩]
  descriptors := ⟨[("alarm", 0x80000100), ("status", 0x101)]⟩

theorem analyze_registry : analyze registryDocument 16 "registry" = .ok registryModel :=
  ok_of_toOption (by decide +kernel)

theorem encodeToBytes_alarm :
    registryModel.encodeToBytes 16 "Alarm" (.record [("level", .unsigned 7)]) =
      .ok (.ok [1, 0, 7]) :=
  eq_ok_of_toOption (by decide +kernel)

theorem headerSizeOf?_registry :
    analyze registryDocument 16 "registry" = .ok registryModel ∧
    registryModel.headerSizeOf? 0x80000100 = some 3 ∧
    (∀ nested reading record, (Codec.decodeStored registryModel nested reading record
      ⟨"peer_descriptor", .descriptor, 8, .none, none, false⟩).run { bytes := [1, 0, 7] } =
        .ok (.ok (.descriptor 0x80000100), { bytes := [1, 0, 7], offset := 1 })) ∧
    registryModel.headerSizeOf? 0x101 = some 6 ∧
    registryModel.headerSizeOf? 0x102 = none ∧
    registryModel.headerSizeOf? 0x100 = registryModel.headerSize? 0x100 := by
  obtain ⟨packets, templated, others, flags, -, -⟩ := headerSizeOf?_of_wire analyze_registry
  obtain ⟨size, starts⟩ := packets alarmStruct (by decide) rfl 0x80000100 rfl
  obtain ⟨first, head, reads⟩ := starts _ _ encodeToBytes_alarm
  cases head
  refine ⟨analyze_registry, size, reads _ rfl rfl rfl, ?_, others 0x102 (by decide) (by decide)
    (by decide), flags 0x100 ?_⟩
  · obtain ⟨s, member, named, known⟩ := templated ⟨"status", 0x101, "Generic"⟩ (by decide)
    rw [known]
    rcases List.mem_cons.mp member with rfl | member
    · rfl
    · cases List.mem_singleton.mp member
      exact absurd named (by decide)
  · intro i least _
    have large : 2 ^ 16 ≤ 2 ^ i := Nat.pow_le_pow_right (by decide) least
    exact Nat.testBit_lt_two_pow (Nat.lt_of_lt_of_le (by decide) large)

end PacketSpec
