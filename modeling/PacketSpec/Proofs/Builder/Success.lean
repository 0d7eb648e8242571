import PacketSpec.Builder.Struct

/-! Successful runs of building steps, taken apart into those of their parts. -/
namespace PacketSpec.Builder

variable {α β : Type} {before middle after : Context}

def Yields (step : Build α) (before : Context) (result : α) (after : Context) : Prop :=
  step.run before = (.ok result, after)

@[simp] theorem yields_pure {a b : α} :
    Yields (pure a) before b after ↔ b = a ∧ after = before := by
  constructor
  · intro h
    cases h
    exact ⟨rfl, rfl⟩
  · rintro ⟨rfl, rfl⟩
    rfl

theorem run_bind (step : Build α) (next : α → Build β) (before : Context) :
    (step >>= next).run before =
      match step.run before with
      | (.ok a, middle) => (next a).run middle
      | (.error stop, middle) => (.error stop, middle) := by
  simp only [bind, ExceptT.bind, ExceptT.run, ExceptT.mk, StateT.bind]
  rcases step before with ⟨_ | _, _⟩ <;> rfl

@[simp] theorem yields_bind {step : Build α} {next : α → Build β} {b : β} :
    Yields (step >>= next) before b after ↔
      ∃ a middle, Yields step before a middle ∧ Yields (next a) middle b after := by
  simp only [Yields, run_bind]
  constructor
  · intro h
    split at h
    · next a middle first => exact ⟨a, middle, first, h⟩
    · cases h
  · rintro ⟨a, middle, first, second⟩
    rw [first]
    exact second

@[simp] theorem yields_map {step : Build α} {f : α → β} {b : β} :
    Yields (f <$> step) before b after ↔ ∃ a, Yields step before a after ∧ b = f a := by
  rw [map_eq_pure_bind, yields_bind]
  simp only [yields_pure]
  constructor
  · rintro ⟨a, middle, h, rfl, rfl⟩
    exact ⟨a, h, rfl⟩
  · rintro ⟨a, h, rfl⟩
    exact ⟨a, after, h, rfl, rfl⟩

@[simp] theorem yields_get {context : Context} :
    Yields get before context after ↔ context = before ∧ after = before := by
  constructor
  · intro h
    cases h
    exact ⟨rfl, rfl⟩
  · rintro ⟨rfl, rfl⟩
    rfl

@[simp] theorem yields_modify {change : Context → Context} {u : Unit} :
    Yields (modify change) before u after ↔ after = change before := by
  constructor
  · intro h
    cases h
    rfl
  · rintro rfl
    rfl

@[simp] theorem yields_modifyModel {change : Model → Model} {u : Unit} :
    Yields (modifyModel change) before u after ↔
      after = { before with model := change before.model } := yields_modify

@[simp] theorem yields_throw {stop : Stop} {a : α} : ¬ Yields (throw stop) before a after := nofun

@[simp] theorem yields_fail {cause : Cause} {a : α} : ¬ Yields (fail cause) before a after := nofun

@[simp] theorem yields_failAt {row : RowRef} {cause : Cause} {a : α} :
    ¬ Yields (failAt row cause) before a after := nofun

@[simp] theorem yields_checked {result : Except Fault α} {a : α} :
    Yields (checked result) before a after ↔ result = .ok a ∧ after = before := by
  cases result with
  | ok => simp [checked, yields_pure, eq_comm]
  | error => simp [checked, yields_throw]

@[simp] theorem yields_readable {cause : Cell.Error → Cause} {result : Except Cell.Error α}
    {a : α} :
    Yields (readable cause result) before a after ↔ result = .ok a ∧ after = before := by
  cases result with
  | ok => simp [readable, yields_pure, eq_comm]
  | error => simp [readable, yields_fail]

@[simp] theorem yields_readableAt {row : RowRef} {cause : Cell.Error → Cause}
    {result : Except Cell.Error α} {a : α} :
    Yields (readableAt row cause result) before a after ↔ result = .ok a ∧ after = before := by
  cases result with
  | ok => simp [readableAt, yields_pure, eq_comm]
  | error => simp [readableAt, yields_failAt]

@[simp] theorem yields_ite {p : Prop} [Decidable p] {first second : Build α} {a : α} :
    Yields (if p then first else second) before a after ↔
      p ∧ Yields first before a after ∨ ¬ p ∧ Yields second before a after := by
  by_cases h : p <;> simp [h]

end PacketSpec.Builder
