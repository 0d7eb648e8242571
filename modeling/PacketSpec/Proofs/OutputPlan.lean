import PacketSpec.Command.Plan
import PacketSpec.Proofs.Codegen.Declared

/-! Which command lines are understood. Kinds and files are paired by position before they are
sorted, and a repeated kind is looked for between neighbours only after that. -/
namespace PacketSpec.Command

def OutputKind.names : OutputKind → List String
  | .unit .enums => ["enums", "enum", "packet_enums"]
  | .unit .data => ["data", "data-structs", "structs", "packet_data"]
  | .unit .encoder => ["encode", "encoder", "packet_encode"]
  | .unit .decoder => ["decode", "decoder", "packet_decode"]
  | .model => ["ir", "json"]

/-- A part of the list of kinds names a kind, in any case and with any white space around it. -/
def OutputKind.NamedBy (part : List Char) (kind : OutputKind) : Prop :=
  Text.lower (Text.trim (String.ofList part)) ∈ kind.names

/-- The command line asks for outputs of some kinds, in as many files. -/
structure Options.Asks (options : Options) (kinds : List OutputKind) (input : String)
    (files : List String) : Prop where
  window : options.window.getD 32 ∈ [8, 16, 32, 64]
  /-- The first argument is made of names with commas between them. -/
  arguments : ∃ parts, parts ≠ [] ∧ (∀ part ∈ parts, ',' ∉ part) ∧
    List.Forall₂ OutputKind.NamedBy parts kinds ∧
    options.arguments = String.ofList ([','].intercalate parts) :: input :: files
  oneEach : kinds.length = files.length
  distinct : kinds.Nodup

def InOrder (outputs : List (OutputKind × String)) : Prop :=
  outputs.Pairwise fun a b => a.1.rank < b.1.rank

section Split

variable {separator : Char}

theorem split_append {part : List Char} (plain : separator ∉ part) (rest : List Char) :
    Text.split separator (part ++ separator :: rest) = part :: Text.split separator rest := by
  induction part with
  | nil => simp [Text.split]
  | cons c part ih =>
    have other : c ≠ separator := (List.ne_of_not_mem_cons plain).symm
    rw [List.cons_append, Text.split, if_neg (by simpa using other),
      ih (List.not_mem_of_not_mem_cons plain)]

theorem split_of_not_mem {part : List Char} (plain : separator ∉ part) :
    Text.split separator part = [part] := by
  induction part with
  | nil => rfl
  | cons c part ih =>
    have other : c ≠ separator := (List.ne_of_not_mem_cons plain).symm
    rw [Text.split, if_neg (by simpa using other), ih (List.not_mem_of_not_mem_cons plain)]

theorem split_intercalate {parts : List (List Char)} (nonempty : parts ≠ [])
    (plain : ∀ part ∈ parts, separator ∉ part) :
    Text.split separator ([separator].intercalate parts) = parts := by
  induction parts with
  | nil => exact absurd rfl nonempty
  | cons part rest ih =>
    obtain ⟨own, others⟩ := List.forall_mem_cons.mp plain
    cases rest with
    | nil => rw [List.intercalate_singleton, split_of_not_mem own]
    | cons second rest =>
      rw [List.intercalate_cons_cons, List.append_assoc, List.singleton_append, split_append own,
        ih (by simp) others]

theorem intercalate_split (separator : Char) (text : List Char) :
    Text.split separator text ≠ [] ∧ (∀ part ∈ Text.split separator text, separator ∉ part) ∧
      [separator].intercalate (Text.split separator text) = text := by
  induction text with
  | nil => simp [Text.split]
  | cons c rest ih =>
    obtain ⟨nonempty, plain, joined⟩ := ih
    obtain ⟨part, parts, known⟩ := List.exists_cons_of_ne_nil nonempty
    rw [known] at plain joined
    rw [Text.split, known]
    split
    · next same =>
      rw [beq_iff_eq] at same
      exact ⟨by simp, by simpa using plain, by
        rw [List.intercalate_cons_cons, joined, same, List.nil_append, List.singleton_append]⟩
    · next other =>
      obtain ⟨own, others⟩ := List.forall_mem_cons.mp plain
      refine ⟨by simp, List.forall_mem_cons.mpr ⟨?_, others⟩, ?_⟩
      · exact List.not_mem_cons_of_ne_of_not_mem (Ne.symm (by simpa using other)) own
      · rw [← joined]
        cases parts <;> simp [List.intercalate_cons_cons]

end Split

theorem ofLowerName?_eq_some {name : String} {kind : OutputKind} :
    OutputKind.ofLowerName? name = some kind ↔ name ∈ kind.names := by
  constructor
  · intro found
    simp only [OutputKind.ofLowerName?, Codegen.CodeUnit.ofLowerName?, Bool.or_eq_true, beq_iff_eq,
      List.contains_iff_mem] at found
    split_ifs at found with model enums data encoder decoder
    · cases found
      simpa [OutputKind.names] using model
    · cases found
      exact enums
    · cases found
      exact data
    · cases found
      exact encoder
    · cases found
      exact decoder
    · cases found
  · intro named
    cases kind with
    | unit unit => cases unit <;> revert name <;> decide
    | model => revert name; decide

theorem readKind_eq_ok {name : String} {kind : OutputKind} :
    readKind name = .ok kind ↔ Text.lower (Text.trim name) ∈ kind.names := by
  rw [← ofLowerName?_eq_some, readKind]
  cases OutputKind.ofLowerName? (Text.lower (Text.trim name)) <;> simp

theorem mapM_of_forall₂ {α β ε : Type} {step : α → Except ε β} {items : List α} {results : List β}
    (each : List.Forall₂ (fun item result => step item = .ok result) items results) :
    items.mapM step = .ok results := by
  induction each with
  | nil => rfl
  | cons first _ ih =>
    rw [List.mapM_cons, first, ih]
    rfl

/-- The kinds are read from the parts between commas. -/
theorem readKinds_eq_ok {text : String} {kinds : List OutputKind} :
    readKinds text = .ok kinds ↔ ∃ parts, parts ≠ [] ∧ (∀ part ∈ parts, ',' ∉ part) ∧
      List.Forall₂ OutputKind.NamedBy parts kinds ∧
      text = String.ofList ([','].intercalate parts) := by
  have named : (fun part kind => readKind (String.ofList part) = .ok kind) =
      OutputKind.NamedBy := by
    funext part kind
    exact propext readKind_eq_ok
  have read : readKinds text = .ok kinds ↔
      List.Forall₂ OutputKind.NamedBy (Text.split ',' text.toList) kinds := by
    rw [readKinds, ← named]
    exact Iff.trans ⟨Codegen.forall₂_of_mapM, mapM_of_forall₂⟩ List.forall₂_map_left_iff
  rw [read]
  constructor
  · intro each
    obtain ⟨nonempty, plain, joined⟩ := intercalate_split ',' text.toList
    exact ⟨_, nonempty, plain, each, by rw [joined, String.ofList_toList]⟩
  · rintro ⟨parts, nonempty, plain, each, rfl⟩
    rwa [String.toList_ofList, split_intercalate nonempty plain]

variable {outputs : List (OutputKind × String)}

theorem rank_injective : Function.Injective OutputKind.rank := by
  intro a b same
  have back (kind : OutputKind) : [OutputKind.unit .enums, .unit .data, .unit .encoder,
      .unit .decoder, .model][kind.rank]? = some kind := by
    cases kind with
    | unit unit => cases unit <;> rfl
    | model => rfl
  exact Option.some.inj ((back a).symm.trans (same ▸ back b))

theorem sortOutputs_perm (outputs : List (OutputKind × String)) :
    (sortOutputs outputs).Perm outputs := List.mergeSort_perm _ _

theorem sortOutputs_pairwise (outputs : List (OutputKind × String)) :
    (sortOutputs outputs).Pairwise fun a b => a.1.rank ≤ b.1.rank := by
  refine (List.pairwise_mergeSort ?_ ?_ outputs).imp of_decide_eq_true
  · intro a b c
    simp only [decide_eq_true_eq]
    exact Nat.le_trans
  · intro a b
    simp only [Bool.or_eq_true, decide_eq_true_eq]
    exact Nat.le_total _ _

/-- Between sorted outputs it is enough to compare neighbours. -/
theorem repeatedKind?_eq_none (sorted : outputs.Pairwise fun a b => a.1.rank ≤ b.1.rank) :
    repeatedKind? outputs = none ↔ InOrder outputs := by
  induction outputs with
  | nil => simp [repeatedKind?, InOrder]
  | cons first others ih =>
    cases others with
    | nil => simp [repeatedKind?, InOrder]
    | cons second rest =>
      obtain ⟨before, sorted⟩ := List.pairwise_cons.mp sorted
      have next := before second (.head _)
      rw [repeatedKind?, InOrder, List.pairwise_cons]
      split
      · next same =>
        refine iff_of_false (by simp) fun ordered => ?_
        exact absurd (ordered.1 second (.head _)) (by rw [same]; exact Nat.lt_irrefl _)
      · next different =>
        have less : first.1.rank < second.1.rank :=
          Nat.lt_of_le_of_ne next fun same => different (rank_injective same)
        refine (ih sorted).trans ⟨fun ordered => ⟨?_, ordered⟩, And.right⟩
        intro output member
        rcases List.mem_cons.mp member with rfl | later
        · exact less
        · have more := (List.pairwise_cons.mp ordered).1 output later
          exact Nat.lt_trans less more

theorem inOrder_iff (sorted : outputs.Pairwise fun a b => a.1.rank ≤ b.1.rank) :
    InOrder outputs ↔ (outputs.map Prod.fst).Nodup := by
  rw [List.Nodup, List.pairwise_map]
  constructor
  · exact List.Pairwise.imp fun less same => Nat.ne_of_lt less (congrArg OutputKind.rank same)
  · intro distinct
    refine (sorted.and distinct).imp ?_
    rintro a b ⟨le, different⟩
    exact Nat.lt_of_le_of_ne le fun same => different (rank_injective same)

theorem inOrder_sortOutputs :
    InOrder (sortOutputs outputs) ↔ (outputs.map Prod.fst).Nodup := by
  rw [inOrder_iff (sortOutputs_pairwise outputs)]
  exact ((sortOutputs_perm outputs).map Prod.fst).nodup_iff

/-- There is only one way to put outputs in order. -/
theorem InOrder.eq_sortOutputs {ordered : List (OutputKind × String)} (inOrder : InOrder ordered)
    (same : ordered.Perm outputs) : ordered = sortOutputs outputs := by
  have sorted : ordered.Pairwise fun a b => a.1.rank ≤ b.1.rank := inOrder.imp Nat.le_of_lt
  have again : InOrder (sortOutputs outputs) := by
    rw [inOrder_sortOutputs, ← (same.map Prod.fst).nodup_iff]
    exact (inOrder_iff sorted).mp inOrder
  refine List.Perm.eq_of_pairwise ?_ inOrder again (same.trans (sortOutputs_perm outputs).symm)
  intro a b _ _ less more
  exact absurd less (Nat.lt_asymm more)

theorem checkWindowWidth_eq_ok {width checked : Nat} :
    (checkWindowWidth width).mapError UsageError.window = .ok checked ↔
      width ∈ [8, 16, 32, 64] ∧ checked = width := by
  rw [checkWindowWidth]
  split
  · next known =>
    have listed : width ∈ [8, 16, 32, 64] := List.contains_iff_mem.mp known
    simp only [Except.mapError, Except.ok.injEq, listed, true_and, eq_comm]
  · next unknown =>
    have unlisted : width ∉ [8, 16, 32, 64] := fun listed =>
      unknown (List.contains_iff_mem.mpr listed)
    simp only [Except.mapError, reduceCtorEq, unlisted, false_and]

theorem ofOptions_eq_ok {options : Options} {plan : Plan} :
    Plan.ofOptions options = .ok plan ↔
      options.window.getD 32 ∈ [8, 16, 32, 64] ∧ ∃ text kinds files,
        options.arguments = text :: plan.input :: files ∧ readKinds text = .ok kinds ∧
        kinds.length = files.length ∧ repeatedKind? (sortOutputs (kinds.zip files)) = none ∧
        plan.window = options.window.getD 32 ∧ plan.outputs = sortOutputs (kinds.zip files) := by
  rw [Plan.ofOptions, bind_eq_ok]
  constructor
  · rintro ⟨width, checked, planned⟩
    obtain ⟨known, rfl⟩ := checkWindowWidth_eq_ok.mp checked
    refine ⟨known, ?_⟩
    split at planned
    · cases planned
    · cases planned
    · next text input files given =>
      obtain ⟨kinds, read, planned⟩ := bind_eq_ok.mp planned
      dsimp only at planned
      split at planned
      · cases planned
      · next counted =>
        split at planned
        · cases planned
        · next single =>
          cases planned
          exact ⟨text, kinds, files, given, read, by simpa using counted, single, rfl, rfl⟩
  · rintro ⟨known, text, kinds, files, given, read, counted, single, width, outputs⟩
    refine ⟨_, checkWindowWidth_eq_ok.mpr ⟨known, rfl⟩, ?_⟩
    rw [given]
    refine bind_eq_ok.mpr ⟨kinds, read, ?_⟩
    dsimp only
    rw [if_neg (by simpa using counted), single]
    obtain ⟨window, input, listed⟩ := plan
    cases width
    cases outputs
    rfl

/-- A command line is understood if and only if it asks for outputs, and then each kind is written
to the file at its own position. -/
theorem ofOptions_exact (options : Options) :
    ((∃ plan, Plan.ofOptions options = .ok plan) ↔
      ∃ kinds input files, options.Asks kinds input files) ∧
    ∀ plan, Plan.ofOptions options = .ok plan ↔
      ∃ kinds files, options.Asks kinds plan.input files ∧
        plan.window = options.window.getD 32 ∧
        plan.outputs.Perm (kinds.zip files) ∧ InOrder plan.outputs := by
  have planned_iff (plan : Plan) : Plan.ofOptions options = .ok plan ↔
      ∃ kinds files, options.Asks kinds plan.input files ∧
        plan.window = options.window.getD 32 ∧
        plan.outputs.Perm (kinds.zip files) ∧ InOrder plan.outputs := by
    rw [ofOptions_eq_ok]
    constructor
    · rintro ⟨known, text, kinds, files, given, read, counted, single, width, outputs⟩
      obtain ⟨parts, nonempty, plain, each, rfl⟩ := readKinds_eq_ok.mp read
      have ordered := (repeatedKind?_eq_none (sortOutputs_pairwise _)).mp single
      have distinct := inOrder_sortOutputs.mp ordered
      rw [List.map_fst_zip (Nat.le_of_eq counted)] at distinct
      rw [outputs]
      exact ⟨kinds, files, ⟨known, ⟨parts, nonempty, plain, each, given⟩, counted, distinct⟩, width,
        sortOutputs_perm _, ordered⟩
    · rintro ⟨kinds, files, ⟨known, ⟨parts, nonempty, plain, each, given⟩, counted, distinct⟩, width,
        same, ordered⟩
      have sorted := ordered.eq_sortOutputs same
      rw [sorted] at ordered
      exact ⟨known, _, kinds, files, given, readKinds_eq_ok.mpr ⟨parts, nonempty, plain, each, rfl⟩,
        counted, (repeatedKind?_eq_none (sortOutputs_pairwise _)).mpr ordered, width, sorted⟩
  refine ⟨⟨?_, ?_⟩, planned_iff⟩
  · rintro ⟨plan, planned⟩
    obtain ⟨kinds, files, asks, -⟩ := (planned_iff plan).mp planned
    exact ⟨kinds, plan.input, files, asks⟩
  · rintro ⟨kinds, input, files, asks⟩
    have distinct := asks.distinct
    rw [← List.map_fst_zip (Nat.le_of_eq asks.oneEach), ← inOrder_sortOutputs] at distinct
    exact ⟨⟨_, input, _⟩, (planned_iff _).mpr ⟨kinds, files, asks, rfl, sortOutputs_perm _, distinct⟩⟩

end PacketSpec.Command
