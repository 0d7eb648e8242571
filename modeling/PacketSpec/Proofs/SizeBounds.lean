import PacketSpec.Proofs.Builder.Stopping
import PacketSpec.Proofs.Reached

/-! The sizes of a document whose tables are not too large can all be computed: its analysis ends
with a model or with diagnostics, and no product, total, difference, shift or mask on the way leaves
the 64 bits of a size. The counter that numbers the rows of one name has 32 bits, one of which is its
sign, and it is one step ahead: a table of 2³¹ - 1 such rows is too long for it. -/
namespace PacketSpec

open Builder

structure FitsSizes (rows : List FieldRow) : Prop where
  count : rows.length < 2 ^ 31 - 1
  bits : rowBits rows < 2 ^ 64

instance (rows : List FieldRow) : Decidable (FitsSizes rows) :=
  decidable_of_iff (rows.length < 2 ^ 31 - 1 ∧ rowBits rows < 2 ^ 64)
    ⟨fun fits => ⟨fits.1, fits.2⟩, fun fits => ⟨fits.count, fits.bits⟩⟩

def Document.FitsSizes (document : Document) : Prop :=
  ∀ table ∈ document.structs, PacketSpec.FitsSizes table.2

instance (document : Document) : Decidable document.FitsSizes :=
  inferInstanceAs (Decidable (∀ table ∈ document.structs, PacketSpec.FitsSizes table.2))

/-- A missing table has no rows, so it fits as well. -/
theorem Document.FitsSizes.fieldRows {document : Document} (fits : document.FitsSizes)
    (key : String) : PacketSpec.FitsSizes (document.fieldRows key) := by
  cases found : document.structs.lookup key with
  | none =>
    rw [Document.fieldRows, found]
    exact ⟨by decide, by decide⟩
  | some rows =>
    rw [Document.fieldRows, found]
    exact fits (key, rows) (mem_of_lookup found)

theorem Document.FitsSizes.tableBits {document : Document} (fits : document.FitsSizes)
    (key : String) : document.tableBits key < Size.bound := (fits.fieldRows key).bits

section Stopping

variable {document : Document} {stack : List String}

theorem forM_stops {α : Type} {items : List α} {step : α → Build Unit}
    (each : ∀ item, StopsIn document stack (step item)) (evolves : ∀ item, Evolves (step item)) :
    StopsIn document stack (items.forM step) := by
  induction items with
  | nil => exact Stops.plain (stops_pure ())
  | cons item rest ih => exact (each item).bind (evolves item) fun _ _ _ _ => ih

theorem buildTemplate_stops (document : Document) (window : Nat) (template : TemplateRow) :
    StopsIn document [] (buildTemplate document window template) := by
  apply (Stops.plain (by simp)).bind (still_readable _ _).evolves
  intro _ anchor _ _
  apply (buildStruct_stops document window _ _ _).bind_stops False.elim
  intro _ result _ _
  cases result <;> simp

theorem buildCodes_stops (document : Document) (window count code : Nat) :
    StopsIn document [] (buildCodes document window count code) := by
  induction count generalizing code with
  | zero => exact Stops.plain (stops_pure ())
  | succ count ih =>
    apply (build_stops document window _ _ _).bind (build_evolves _ _ _ _ _)
    intro _ built _ _
    cases built with
    | empty => exact Stops.plain (stops_pure ())
    | struct | templated => exact ih (code + 1)

theorem buildRange_stops (document : Document) (window : Nat) (range : RangeRow) :
    StopsIn document [] (buildRange document window range) := by
  apply (Stops.plain (by simp)).bind (still_readable _ _).evolves
  intro _ codes _ _
  simp only [fail_bind]
  apply stopsIn_ite
  · exact fun _ => Stops.plain (by simp)
  · exact fun _ => buildCodes_stops _ _ _ _

theorem buildAll_stops (document : Document) (window : Nat) :
    StopsIn document [] (buildAll document window) :=
  (forM_stops (buildTemplate_stops document window) (buildTemplate_evolves document window)).bind
    (forM_evolves (buildTemplate_evolves document window)) fun _ _ _ _ =>
      forM_stops (buildRange_stops document window) (buildRange_evolves document window)

end Stopping

/-- A fault of the analysis is the fault of a table that is too large. -/
theorem oversized_of_fault {document : Document} {window : Nat} {source : String} {f : Fault}
    (failed : analyze document window source = .error (.fault f)) : document.Oversized := by
  unfold analyze at failed
  split at failed
  · cases failed
  · next run =>
    cases failed
    cases buildAll_stops document window rfl run with
    | ordinary ordinary =>
      cases ordinary with
      | fault large => exact large
  · split at failed <;> cases failed

theorem Document.FitsSizes.not_oversized {document : Document} (fits : document.FitsSizes) :
    ¬ document.Oversized := by
  rintro ⟨key, large | many⟩
  · have small := fits.tableBits key
    omega
  · have few := (fits.fieldRows key).count
    omega

/-- If every table has fewer than 2³¹ - 1 rows and these declare fewer than 2⁶⁴ bits, then the
analysis gives a model or diagnostics and never stops because a size or a counter leaves its range,
whatever the width of the window. The number that tells the name of a row from that of an earlier one
is below 2³¹ - 1, so that the counter behind it has a place. -/
theorem analyze_of_fitsSizes {document : Document} (fits : document.FitsSizes) (window : Nat)
    (source : String) :
    ((∃ model, analyze document window source = .ok model) ∨
      ∃ ds, analyze document window source = .error (.diagnostics ds)) ∧
    ∀ key siblings label, siblings.length < (document.fieldRows key).length →
      ∃ id, freshId siblings label = .ok id ∧ (id = label ∨
        ∃ number < 2 ^ 31 - 1, id = s!"{label}_{Text.decimal number}") := by
  constructor
  · cases ended : analyze document window source with
    | ok model => exact .inl ⟨model, rfl⟩
    | error e =>
      cases e with
      | diagnostics ds => exact .inr ⟨ds, rfl⟩
      | fault f => exact absurd (oversized_of_fault ended) fits.not_oversized
  · intro key siblings label before
    have rows := (fits.fieldRows key).count
    refine ⟨_, freshId_succeeds (by omega) label, ?_⟩
    rcases freeId_number siblings label with same | ⟨number, bounded, numbered⟩
    · exact .inl same
    · exact .inr ⟨number, by omega, numbered⟩

/-- A table that declares 2⁶⁴ - 8 bits, with a parity, a packed byte and a descriptor. -/
def vastDocument : Document where
  ranges := [⟨"'0x0001'", "#vast"⟩]
  structs := [
    ("0x0001", [
      ⟨"u(8)", "vast_descriptor", "'0x01'"⟩,
      ⟨"u(3)", "mode", ""⟩,
      ⟨"u(5)", "mode", ""⟩,
      ⟨"b(64)", "parity", "LDPC(80, 16)"⟩,
      ⟨"2305843009213693941*u(8)", "text", "string"⟩])]

theorem analyze_vast :
    vastDocument.FitsSizes ∧ vastDocument.tableBits "0x0001" = 2 ^ 64 - 8 ∧
    ((∃ model, analyze vastDocument 8 "vast" = .ok model) ∨
      ∃ ds, analyze vastDocument 8 "vast" = .error (.diagnostics ds)) := by
  have fits : vastDocument.FitsSizes := by decide +kernel
  exact ⟨fits, by decide +kernel, (analyze_of_fitsSizes fits 8 "vast").1⟩

def crowdName (index : Nat) : String :=
  if index = 0 then "a" else s!"a_{Text.decimal (index + 1)}"

def crowdField (index : Nat) : Field := ⟨crowdName index, .string 1, 8, .none, none, false⟩

def crowd (count : Nat) : List Field := (List.range count).map crowdField

def crowdRow : FieldRow := ⟨"u(8)", "a", "string"⟩

theorem candidates_crowd (count : Nat) :
    candidates (crowd count) "a" = (List.range (count + 1)).map crowdName := by
  have joined : toString "a" ++ toString "_" = toString "a_" := rfl
  rw [candidates, List.range_succ_eq_map, List.map_cons, List.map_map]
  simp [crowd, crowdName, Function.comp_def, joined]

theorem mem_candidates_crowd {count : Nat} {id : String} :
    id ∈ candidates (crowd count) "a" ↔ ∃ index ≤ count, crowdName index = id := by
  rw [candidates_crowd, List.mem_map]
  exact exists_congr fun index => and_congr_left fun _ => by rw [List.mem_range, Nat.lt_succ_iff]

theorem not_isFree_crowd {count index : Nat} (taken : index < count) :
    isFree (crowd count) (crowdName index) = false := by
  rw [← Bool.not_eq_true, isFree_iff]
  intro free
  exact free (crowdField index) (List.mem_map_of_mem (List.mem_range.mpr taken)) rfl

/-- Only the next name is free. -/
theorem eq_crowdName {count : Nat} {id : String} (member : id ∈ candidates (crowd count) "a")
    (free : isFree (crowd count) id = true) : id = crowdName count := by
  obtain ⟨index, bounded, rfl⟩ := mem_candidates_crowd.mp member
  rcases Nat.lt_or_eq_of_le bounded with taken | rfl
  · rw [not_isFree_crowd taken] at free
    cases free
  · rfl

theorem isFree_crowd (count : Nat) : isFree (crowd count) (crowdName count) = true := by
  obtain ⟨id, member, free⟩ := exists_isFree (crowd count) "a"
  exact eq_crowdName member free ▸ free

theorem findIdx_crowd (count : Nat) :
    (candidates (crowd count) "a").findIdx (isFree (crowd count)) = count := by
  rw [candidates_crowd, List.findIdx_eq (by simp)]
  constructor
  · simpa using isFree_crowd count
  · intro index taken
    simpa using not_isFree_crowd taken

theorem freeId_crowd (count : Nat) : freeId (crowd count) "a" = crowdName count := by
  rw [freeId]
  cases found : (candidates (crowd count) "a").find? (isFree (crowd count)) with
  | none =>
    obtain ⟨id, member, free⟩ := exists_isFree (crowd count) "a"
    exact absurd free (List.find?_eq_none.mp found id member)
  | some id => exact eq_crowdName (List.mem_of_find?_eq_some found) (List.find?_some found)

theorem freshId_crowd (count : Nat) : freshId (crowd count) "a" =
    if count + 2 < 1 <<< 31 then .ok (crowdName count) else .error .counterOverflow := by
  rw [freshId, findIdx_crowd, freeId_crowd, Size.checkCounter]
  split <;> rfl

theorem buildField_crowd (document : Document) (nested : String → Build (Option String))
    (row : RowRef) (siblings : List Field) (index bits : Nat) (context : Context) :
    Yields (buildField document nested row siblings ⟨none, .unsigned, 8⟩ (crowdName index) .string
      bits) context (crowdField index) context := by
  simp [buildField, shapeField, resolveRepetition, joinBits, crowdField, Shape.isScalar]

theorem add_crowd {draft : Draft} {index : Nat} (fields : draft.fields = crowd index)
    (size : draft.sizeBits = 8 * index) (sinceParity : draft.bitsSinceParity = 8 * index)
    (early : index < 2 ^ 31) : ∃ extended, draft.add (crowdField index) = .ok extended ∧
      extended.fields = crowd (index + 1) ∧ extended.sizeBits = 8 * (index + 1) ∧
      extended.bitsSinceParity = 8 * (index + 1) := by
  have one : Size.check 8 = .ok 8 := Size.check_of_lt (by decide)
  have all : Size.check (8 * index + 8) = .ok (8 * index + 8) :=
    Size.check_of_lt (by rw [Size.bound]; omega)
  have longer : crowd index ++ [crowdField index] = crowd (index + 1) := by
    simp [crowd, List.range_succ]
  refine ⟨{ draft with
    fields := crowd (index + 1), sizeBits := 8 * (index + 1), bitsSinceParity := 8 * (index + 1)
    descriptor := draft.registeredCode (crowdField index) }, ?_, rfl, rfl, rfl⟩
  rw [← longer, ← fields, Draft.add]
  simp [crowdField, Shape.isParity, Shape.isStruct, Field.wireBits?, Size.mul, Size.add, one, all,
    size, sinceParity, bind, Except.bind]
  rfl

/-- By induction on the rows that are left: each one takes the next name, until the counter has no
place for the step behind it. -/
theorem buildRows_crowd {document : Document} {nested : String → Build (Option String)}
    {key : String} {name : Option String} {left index : Nat} {draft : Draft} (context : Context)
    (fields : draft.fields = crowd index) (size : draft.sizeBits = 8 * index)
    (sinceParity : draft.bitsSinceParity = 8 * index) (early : index < 2 ^ 31 - 1)
    (long : 2 ^ 31 - 1 ≤ index + left) :
    (buildRows document nested key name index (List.replicate left crowdRow) draft).run context =
      (.error (.fault .counterOverflow), context) := by
  induction left generalizing index draft with
  | zero => omega
  | succ left ih =>
    have marked : Cell.readMarker "string" = .ok .string := ok_of_toOption (by decide +kernel)
    have named : Cell.readName "a" = .ok "a" := ok_of_toOption (by decide +kernel)
    have typed : Cell.readType "u(8)" = .ok ⟨none, .unsigned, 8⟩ := ok_of_toOption (by decide +kernel)
    have label : Text.snakeCase "a" = "a" := by decide +kernel
    rw [List.replicate_succ, buildRows]
    simp only [crowdRow, marked, named, typed, label, fields, readableAt, pure_bind, freshId_crowd]
    by_cases last : index + 2 < 1 <<< 31
    · obtain ⟨extended, added, longer, larger, further⟩ := add_crowd fields size sinceParity
        (by omega)
      have built := buildField_crowd document nested ⟨key, index⟩ (crowd index) index
        draft.bitsSinceParity context
      rw [if_pos last, checked, pure_bind, Builder.run_bind, built]
      simp only [added, checked, pure_bind]
      exact ih longer larger further (by omega) (by omega)
    · rw [if_neg last]
      rfl

def crowdDocument (rows : Nat) : Document where
  ranges := [⟨"'0x0001'", "#crowd"⟩]
  structs := [("0x0001", List.replicate rows crowdRow)]

theorem build_crowd {rows : Nat} (long : 2 ^ 31 - 1 ≤ rows) (window : Nat) (source : String) :
    ∃ after, (build (crowdDocument rows) window "0x0001" none .packet).run (.new source) =
      (.error (.fault .counterOverflow), after) := by
  have found : (crowdDocument rows).fieldRows "0x0001" = List.replicate rows crowdRow := rfl
  rw [build, show (crowdDocument rows).structs.length + 2 = 2 + 1 from rfl, buildTable,
    run_get_bind]
  simp only [Context.new, List.lookup_nil]
  rw [run_get_bind, if_neg (by simp)]
  simp only [found]
  rw [Builder.run_bind, run_whileInProgress, Builder.run_bind,
    buildRows_crowd _ rfl rfl rfl (by decide) (by omega)]
  exact ⟨_, rfl⟩

theorem analyze_crowd {rows : Nat} (long : 2 ^ 31 - 1 ≤ rows) (window : Nat) (source : String) :
    analyze (crowdDocument rows) window source = .error (.fault .counterOverflow) := by
  obtain ⟨after, stopped⟩ := build_crowd long window source
  have codes : Cell.readCodeRange "'0x0001'" = .ok (1, 1) := ok_of_toOption (by decide +kernel)
  have key : Text.codeKey 1 = "0x0001" := by decide +kernel
  have walked : (buildCodes (crowdDocument rows) window 1 1).run (.new source) =
      (.error (.fault .counterOverflow), after) := by
    rw [buildCodes, Builder.run_bind, key, stopped]
  have ranged : (buildRange (crowdDocument rows) window ⟨"'0x0001'", "#crowd"⟩).run (.new source) =
      (.error (.fault .counterOverflow), after) := by
    rw [buildRange]
    simp only [codes, readable, pure_bind]
    rw [if_neg (by decide), Nat.sub_self, Nat.zero_add]
    exact walked
  have all : (buildAll (crowdDocument rows) window).run (.new source) =
      (.error (.fault .counterOverflow), after) := by
    rw [buildAll, show (crowdDocument rows).templates = [] from rfl, List.forM, pure_bind,
      show (crowdDocument rows).ranges = [⟨"'0x0001'", "#crowd"⟩] from rfl, List.forM,
      Builder.run_bind, ranged]
  rw [analyze, all]

/-- A table of 2³¹ - 1 short rows is too long. -/
theorem crowd_overflows :
    (∀ table ∈ (crowdDocument (2 ^ 31 - 1)).structs,
      table.2.length < 2 ^ 31 ∧ rowBits table.2 < 2 ^ 64) ∧
    analyze (crowdDocument (2 ^ 31 - 1)) 32 "crowd" = .error (.fault .counterOverflow) := by
  refine ⟨?_, analyze_crowd (Nat.le_refl _) 32 "crowd"⟩
  intro table member
  obtain rfl := List.mem_singleton.mp member
  have bits : crowdRow.bits = 8 := by decide +kernel
  rw [rowBits, List.map_replicate, List.sum_replicate_nat, bits, List.length_replicate]
  decide

end PacketSpec
