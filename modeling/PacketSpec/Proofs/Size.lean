import Mathlib.Algebra.GroupWithZero.Nat
import PacketSpec.Size

/-! Computations that may meet a fault, those with sizes among them, and the largest numbers of a
width. -/
namespace PacketSpec

theorem bind_eq_ok {ε α β : Type} {x : Except ε α} {f : α → Except ε β} {b : β} :
    x >>= f = .ok b ↔ ∃ a, x = .ok a ∧ f a = .ok b := by
  cases x <;> simp [bind, Except.bind]

theorem map_eq_ok {ε α β : Type} {x : Except ε α} {f : α → β} {b : β} :
    f <$> x = .ok b ↔ ∃ a, x = .ok a ∧ f a = b := by
  cases x <;> simp [Functor.map, Except.map]

theorem pure_eq_ok {ε α : Type} {a b : α} : (pure a : Except ε α) = .ok b ↔ a = b := by
  simp [pure, Except.pure]

theorem ok_of_toOption {ε α : Type} {x : Except ε α} {a : α} (known : x.toOption = some a) :
    x = .ok a := by
  cases x with
  | ok b => exact congrArg Except.ok (Option.some.inj known)
  | error e => cases known

section Steps

variable {ε σ α β : Type} {step : ExceptT ε (StateT σ (Except Fault)) α}
  {next : α → ExceptT ε (StateT σ (Except Fault)) β}

theorem run_bind (step : ExceptT ε (StateT σ (Except Fault)) α)
    (next : α → ExceptT ε (StateT σ (Except Fault)) β) (before : σ) :
    (step >>= next).run before =
      match step.run before with
      | .ok (.ok a, middle) => (next a).run middle
      | .ok (.error e, middle) => .ok (.error e, middle)
      | .error fault => .error fault := by
  simp only [bind, ExceptT.bind, ExceptT.run, ExceptT.mk, StateT.bind, Except.bind]
  rcases step before with _ | ⟨_ | _, _⟩ <;> rfl

theorem run_bind_eq_ok {before after : σ} {b : β} :
    (step >>= next).run before = .ok (.ok b, after) ↔ ∃ a middle,
      step.run before = .ok (.ok a, middle) ∧ (next a).run middle = .ok (.ok b, after) := by
  rw [run_bind]
  constructor
  · intro run
    split at run
    · next a middle first => exact ⟨a, middle, first, run⟩
    · cases run
    · cases run
  · rintro ⟨a, middle, first, second⟩
    rw [first]
    exact second

end Steps

def Succeeds {ε α : Type} (x : Except ε α) : Prop := ∃ a, x = .ok a

namespace Succeeds

variable {ε α β : Type}

theorem iff_isSome {x : Except ε α} : Succeeds x ↔ x.toOption.isSome = true := by
  cases x <;> simp [Succeeds, Except.toOption]

instance (x : Except ε α) : Decidable (Succeeds x) := decidable_of_iff _ iff_isSome.symm

theorem pure (a : α) : Succeeds (Pure.pure a : Except ε α) := ⟨a, rfl⟩

theorem bind {x : Except ε α} {f : α → Except ε β} (first : Succeeds x)
    (next : ∀ a, x = .ok a → Succeeds (f a)) : Succeeds (x >>= f) := by
  obtain ⟨a, done⟩ := first
  rw [done]
  exact next a done

theorem map {x : Except ε α} (f : α → β) (first : Succeeds x) : Succeeds (f <$> x) := by
  obtain ⟨a, done⟩ := first
  exact ⟨f a, map_eq_ok.mpr ⟨a, done, rfl⟩⟩

theorem mapM {items : List α} {f : α → Except ε β} (each : ∀ item ∈ items, Succeeds (f item)) :
    Succeeds (items.mapM f) := by
  induction items with
  | nil => exact .pure []
  | cons item rest ih =>
    rw [List.mapM_cons]
    refine (each item (.head _)).bind fun b _ => ?_
    exact (ih fun other member => each other (.tail _ member)).bind fun bs _ => .pure (b :: bs)

/-- Steps that succeed one by one succeed in a row. -/
theorem foldlM {items : List α} {step : β → α → Except ε β}
    (each : ∀ item ∈ items, ∀ b, Succeeds (step b item)) (b : β) :
    Succeeds (items.foldlM step b) := by
  induction items generalizing b with
  | nil => exact .pure b
  | cons item rest ih =>
    rw [List.foldlM_cons]
    refine (each item (.head _) b).bind fun b _ => ?_
    exact ih (fun other member => each other (.tail _ member)) b

end Succeeds

/-- What every step of a fold keeps, the fold keeps. -/
theorem foldlM_keeps {ε α β γ : Type} {items : List α} {step : β → α → Except ε β} (view : β → γ)
    (each : ∀ item ∈ items, ∀ before after, step before item = .ok after → view after = view before)
    {start last : β} (done : items.foldlM step start = .ok last) : view last = view start := by
  induction items generalizing start with
  | nil =>
    cases done
    rfl
  | cons item rest ih =>
    rw [List.foldlM_cons] at done
    obtain ⟨middle, first, others⟩ := bind_eq_ok.mp done
    exact (ih (fun other member => each other (.tail _ member)) others).trans
      (each item (.head _) start middle first)

namespace Size

theorem check_eq_ok {n m : Nat} : check n = .ok m ↔ m = n ∧ n < bound := by
  unfold check
  split
  · next fits => simp [fits, eq_comm]
  · next large => simp [large]

theorem add_eq_ok {a b n : Nat} : add a b = .ok n ↔ n = a + b ∧ a + b < bound := check_eq_ok

theorem mul_eq_ok {a b n : Nat} : mul a b = .ok n ↔ n = a * b ∧ a * b < bound := check_eq_ok

theorem sub_eq_ok {a b n : Nat} : sub a b = .ok n ↔ n = a - b ∧ b ≤ a := by
  unfold sub
  split
  · next fits => simp [fits, eq_comm]
  · next large => simp [large]

theorem shiftLeft_eq_ok {a bits n : Nat} :
    shiftLeft a bits = .ok n ↔ n = a <<< bits ∧ a <<< bits < bound := check_eq_ok

theorem check_of_lt {n : Nat} (small : n < bound) : check n = .ok n := if_pos small

theorem check_of_le {n : Nat} (large : bound ≤ n) : check n = .error .sizeOverflow :=
  if_neg (Nat.not_lt.mpr large)

theorem le_of_mul_error {a b : Nat} {f : Fault} (failed : mul a b = .error f) :
    bound ≤ a * b := by
  apply Nat.le_of_not_lt
  intro small
  rw [mul, check_of_lt small] at failed
  cases failed

theorem foldlM_add (sizes : List Nat) {start : Nat} (small : start < bound) :
    sizes.foldlM add start = check (start + sizes.sum) := by
  induction sizes generalizing start with
  | nil => exact (check_of_lt small).symm
  | cons size rest ih =>
    rw [List.foldlM_cons, List.sum_cons, ← Nat.add_assoc]
    by_cases small : start + size < bound
    · rw [add, check_of_lt small]
      exact ih small
    · rw [add, check_of_le (Nat.not_lt.mp small), check_of_le (by omega)]
      rfl

/-- No partial sum is larger than the whole, so it is the whole that must be a size. -/
theorem sum_eq (sizes : List Nat) : sum sizes = check sizes.sum := by
  have added := foldlM_add sizes (show 0 < bound by decide)
  rwa [Nat.zero_add] at added

/-- Sizes that are computed first and added then may leave the range of sizes at either place. -/
theorem sum_mapM {α : Type} {items : List α} {measure : α → Except Fault Nat} {size : α → Nat}
    (each : ∀ item ∈ items, measure item = check (size item)) :
    items.mapM measure >>= sum = check (items.map size).sum := by
  have outcome : items.mapM measure = .ok (items.map size) ∨
      items.mapM measure = .error .sizeOverflow ∧ bound ≤ (items.map size).sum := by
    induction items with
    | nil => exact .inl rfl
    | cons item rest ih =>
      rw [List.mapM_cons, each item (.head _), List.map_cons, List.sum_cons]
      by_cases small : size item < bound
      · rw [check_of_lt small]
        rcases ih fun other member => each other (.tail _ member) with done | ⟨failed, large⟩
        · exact .inl (by rw [done]; rfl)
        · exact .inr ⟨by rw [failed]; rfl, by omega⟩
      · rw [check_of_le (Nat.not_lt.mp small)]
        exact .inr ⟨rfl, by omega⟩
  rcases outcome with done | ⟨failed, large⟩
  · rw [done]
    exact sum_eq _
  · rw [failed, check_of_le large]
    rfl

end Size

theorem maxOfWidth_mono {width wider : Nat} (h : width ≤ wider) :
    maxOfWidth width ≤ maxOfWidth wider := by
  have : 2 ^ min width 64 ≤ 2 ^ min wider 64 := Nat.pow_le_pow_right (by decide) (by omega)
  simp only [maxOfWidth, Nat.one_shiftLeft]
  omega

/-- A mask never leaves the range of sizes. -/
theorem Size.mask_eq (width : Nat) : mask width = .ok (maxOfWidth width) := by
  unfold mask maxOfWidth
  split
  · next narrow =>
    have small : 1 <<< width < bound := by
      rw [bound, Nat.one_shiftLeft, Nat.one_shiftLeft]
      exact Nat.pow_lt_pow_right (by decide) narrow
    have positive : 1 ≤ 1 <<< width := by
      rw [Nat.one_shiftLeft]
      exact Nat.two_pow_pos width
    apply bind_eq_ok.mpr ⟨_, check_of_lt small, _⟩
    rw [Nat.min_eq_left (Nat.le_of_lt narrow)]
    exact sub_eq_ok.mpr ⟨rfl, positive⟩
  · next wide => rw [Nat.min_eq_right (Nat.not_lt.mp wide), bound]

theorem le_maxOfWidth_iff {width value : Nat} (h : width ≤ 64) :
    value ≤ maxOfWidth width ↔ value < 1 <<< width := by
  have : 0 < 2 ^ width := Nat.two_pow_pos width
  simp only [maxOfWidth, Nat.min_eq_left h, Nat.one_shiftLeft]
  omega

end PacketSpec
