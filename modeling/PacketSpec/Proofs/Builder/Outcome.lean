import PacketSpec.Proofs.Builder.Success

/-! Runs of building steps whatever their outcome. Reading cells, resolving counts and checking
fields do not depend on the context and leave it as it is, also where they fail. -/
namespace PacketSpec.Builder

open Cell (TypeKind)

variable {α β : Type}

/-- The step ends in the same way in every context and leaves it as it is, whether it succeeds or
fails. -/
def Still (step : Build α) : Prop := ∃ result, ∀ context, step.run context = (result, context)

theorem Still.unchanged {step : Build α} (still : Still step) (context : Context) :
    (step.run context).2 = context := by
  obtain ⟨result, same⟩ := still
  rw [same]

theorem Still.eq_of_run {step : Build α} (still : Still step) {before after : Context}
    {result : Except Stop α} (run : step.run before = (result, after)) : after = before := by
  have unchanged := still.unchanged before
  rw [run] at unchanged
  exact unchanged

@[simp] theorem still_pure (a : α) : Still (pure a) := ⟨_, fun _ => rfl⟩

@[simp] theorem still_fail (cause : Cause) : Still (fail cause : Build α) := ⟨_, fun _ => rfl⟩

@[simp] theorem still_failAt (row : RowRef) (cause : Cause) : Still (failAt row cause : Build α) :=
  ⟨_, fun _ => rfl⟩

@[simp] theorem still_checked (result : Except Fault α) : Still (checked result) := by
  cases result <;> exact ⟨_, fun _ => rfl⟩

@[simp] theorem still_readable (cause : Cell.Error → Cause) (result : Except Cell.Error α) :
    Still (readable cause result) := by
  cases result <;> exact ⟨_, fun _ => rfl⟩

@[simp] theorem still_readableAt (row : RowRef) (cause : Cell.Error → Cause)
    (result : Except Cell.Error α) : Still (readableAt row cause result) := by
  cases result <;> exact ⟨_, fun _ => rfl⟩

theorem Still.bind {step : Build α} {next : α → Build β} (first : Still step)
    (second : ∀ a, Still (next a)) : Still (step >>= next) := by
  obtain ⟨result, same⟩ := first
  cases result with
  | error stop =>
    refine ⟨.error stop, fun context => ?_⟩
    rw [run_bind, same]
  | ok a =>
    obtain ⟨result, also⟩ := second a
    refine ⟨result, fun context => ?_⟩
    rw [run_bind, same]
    exact also context

theorem Still.map {step : Build α} {f : α → β} (still : Still step) : Still (f <$> step) := by
  rw [map_eq_pure_bind]
  exact still.bind fun a => still_pure (f a)

theorem Still.foldlM {items : List α} {step : β → α → Build β} {start : β}
    (each : ∀ b item, Still (step b item)) : Still (items.foldlM step start) := by
  induction items generalizing start with
  | nil => exact still_pure start
  | cons item rest ih =>
    rw [List.foldlM_cons]
    exact (each start item).bind fun _ => ih

@[simp] theorem still_ite {p : Prop} [Decidable p] {first second : Build α} :
    Still (if p then first else second) ↔ (p → Still first) ∧ (¬ p → Still second) := by
  by_cases h : p <;> simp [h]

/-- A failed check ends the step before what follows it. -/
@[simp] theorem fail_bind (cause : Cause) (next : α → Build β) :
    (fail cause >>= next) = fail cause := rfl

@[simp] theorem failAt_bind (row : RowRef) (cause : Cause) (next : α → Build β) :
    (failAt row cause >>= next) = failAt row cause := rfl

theorem run_get_bind (next : Context → Build β) (before : Context) :
    (get >>= next).run before = (next before).run before := rfl

theorem resolveCount_still (row : RowRef) (siblings : List Field) (name : String) :
    Still (resolveCount row siblings name) := by
  unfold resolveCount
  dsimp only
  split
  · exact still_failAt _ _
  · split <;> simp

theorem resolveRepetition_still (row : RowRef) (siblings : List Field) (id : String)
    (multiplier : Option Cell.Multiplier) :
    Still (resolveRepetition row siblings id multiplier) := by
  unfold resolveRepetition
  split
  case h_5 => exact (resolveCount_still row siblings _).map
  all_goals simp

theorem typedShape_still (o : Outline) (kind : TypeKind) : Still (typedShape o kind) := by
  simp [typedShape]

theorem fixedValue_still (o : Outline) (shape : Shape) (value : Nat) :
    Still (fixedValue o shape value) := by
  simp only [fixedValue, failAt_bind, still_ite, still_failAt, implies_true, true_and]
  intro _
  apply (still_checked _).bind
  intro limit
  simp

theorem checkParity_still (o : Outline) (code : LdpcCode) (bitsBefore : Nat) :
    Still (checkParity o code bitsBefore) := by
  unfold checkParity
  simp only [failAt_bind, still_ite, still_failAt, implies_true, true_and]
  intro _ _
  have compared (declared : Option Nat) : Still (do
      let parityBits ← checked (Size.sub code.codeBits code.messageBits)
      if declared != some parityBits then
        failAt o.row (.invalidParityWidth o.id parityBits)) :=
    (still_checked _).bind (by simp)
  split
  · exact (still_pure _).bind compared
  · exact (still_checked _).map.bind compared
  · exact (still_pure _).bind compared

theorem buildMember_still (key : String) (members : List EnumMember) (row : MemberRow) :
    Still (buildMember key members row) := by
  unfold buildMember
  apply Still.bind (still_readable _ _)
  intro name
  simp only [fail_bind, still_ite, still_fail, implies_true, true_and]
  intro _
  apply Still.bind (still_readable _ _)
  intro value
  simp only [still_ite, still_fail, implies_true, true_and]
  intro _
  split <;> simp

theorem checkWindow_still (key : String) (index : Nat) (window : BitWindow Nat)
    (fields : List Field) : Still (checkWindow key index window fields) := by
  induction fields generalizing index window with
  | nil =>
    unfold checkWindow
    split <;> simp
  | cons field rest ih =>
    simp only [checkWindow, still_ite]
    constructor
    · intro _
      apply Still.bind (still_checked _)
      intro pushed
      split
      · exact ih _ _
      · exact still_failAt _ _
    · intro _
      split
      · exact ih _ _
      · exact still_failAt _ _

end PacketSpec.Builder
