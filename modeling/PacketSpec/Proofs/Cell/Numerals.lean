import PacketSpec.Proofs.TypeCells

/-! Numbers in cells, in decimal digits or in hexadecimal ones behind a mark. The mark is tried first,
and a number ends where neither a digit nor a letter follows. -/
namespace PacketSpec.Cell

open Scan Grammar

inductive IsInteger : Numeral → Prop
  | decimal {n : Numeral} (digits : IsDecimal n) : IsInteger n
  | hexadecimal {mark : Char} {ds : List Char} (marked : mark = 'x' ∨ mark = 'X') (nonempty : ds ≠ [])
      (digits : ∀ c ∈ ds, Text.isHexDigit c = true) : IsInteger ('0' :: mark :: ds)

variable {n : Numeral} {text rest : List Char} {others : List (List Char)}

/-- Digits of a base up to sixteen stand for the number that they were made from. -/
theorem ofDigits_toDigits {base : Nat} (large : 1 < base) (small : base ≤ 16) (n : Nat) :
    Text.ofDigits base (Nat.toDigits base n) = n := by
  have each : ∀ d : Fin 16, Text.digitValue (Nat.digitChar d) = d := by decide
  have digit {d : Nat} (below : d < base) : Text.digitValue (Nat.digitChar d) = d :=
    each ⟨d, by omega⟩
  induction n using Nat.strongRecOn with
  | ind n ih =>
    by_cases single : n < base
    · rw [Nat.toDigits_of_lt_base single]
      simp [Text.ofDigits, digit single]
    · have smaller := ih (n / base) (Nat.div_lt_self (by omega) large)
      rw [Text.ofDigits] at smaller
      rw [Nat.toDigits_of_base_le large (by omega), Text.ofDigits, List.foldl_append, smaller,
        List.foldl_cons, List.foldl_nil, digit (Nat.mod_lt n (by omega))]
      exact Nat.div_add_mod' n base

theorem isDecimal_toDigits (n : Nat) : IsDecimal (Nat.toDigits 10 n) :=
  ⟨Nat.toDigits_ne_nil, fun _ => Nat.isDigit_of_mem_toDigits (by decide) (by decide)⟩

theorem toNat_toDigits (n : Nat) : Numeral.toNat (Nat.toDigits 10 n) = n := by
  rw [(isDecimal_toDigits n).toNat_eq, ofDigits_toDigits (by decide) (by decide)]

theorem Numeral.value_of_lt (small : n.toNat < Size.bound) : n.value = .ok n.toNat := if_pos small

theorem Numeral.value_of_le (large : Size.bound ≤ n.toNat) :
    n.value = .error (.notAnInteger (String.ofList n)) := if_neg (Nat.not_lt.mpr large)

theorem isNameChar_of_isHexDigit {c : Char} (digit : Text.isHexDigit c = true) :
    isNameChar c = true := by
  have small : c.toNat < 128 := by
    simp only [Text.isHexDigit, Bool.or_eq_true, Bool.and_eq_true, decide_eq_true_eq] at digit
    rcases digit with (digit | ⟨-, last⟩) | ⟨-, last⟩
    · exact Text.ascii_of_alphanum (by simp [Char.isAlphanum, digit])
    · exact Nat.lt_of_le_of_lt (Char.le_def.mp last) (by decide)
    · exact Nat.lt_of_le_of_lt (Char.le_def.mp last) (by decide)
  exact Text.ascii_forall (P := fun c => Text.isHexDigit c = true → isNameChar c = true)
    (by decide) small digit

theorem run_hexadecimal :
    hexadecimal.run text = some (n, rest) ↔ ∃ mark ds, (mark = 'x' ∨ mark = 'X') ∧
      n = '0' :: mark :: ds ∧ text = n ++ rest ∧ ds ≠ [] ∧
      (∀ c ∈ ds, Text.isHexDigit c = true) ∧ Stops Text.isHexDigit rest := by
  rw [hexadecimal, run_bind_eq_some]
  simp only [run_orElse, Option.or_eq_some_iff, run_marked]
  constructor
  · rintro ⟨mark, middle, first, second⟩
    obtain ⟨ds, tail, taken, done⟩ := run_bind_eq_some.mp second
    obtain ⟨rfl, nonempty, all, stops⟩ := run_many1.mp taken
    obtain ⟨rfl, rfl⟩ := run_pure_eq_some.mp done
    rcases first with ⟨rfl, rfl⟩ | ⟨-, rfl, rfl⟩
    · exact ⟨_, ds, .inl rfl, rfl, rfl, nonempty, all, stops⟩
    · exact ⟨_, ds, .inr rfl, rfl, rfl, nonempty, all, stops⟩
  · rintro ⟨mark, ds, marked, rfl, rfl, nonempty, all, stops⟩
    have taken := run_many1.mpr ⟨rfl, nonempty, all, stops⟩
    refine ⟨mark, ds ++ rest, ?_, run_bind_eq_some.mpr ⟨ds, rest, taken, rfl⟩⟩
    rcases marked with rfl | rfl
    · exact .inl ⟨rfl, rfl⟩
    · exact .inr ⟨rfl, rfl, rfl⟩

theorem IsInteger.of_run (run : integer.run text = some (n, rest)) :
    IsInteger n ∧ text = n ++ rest := by
  rw [integer, run_orElse, Option.or_eq_some_iff] at run
  rcases run with marked | ⟨-, plain⟩
  · obtain ⟨mark, ds, known, rfl, split, nonempty, all, -⟩ := run_hexadecimal.mp marked
    exact ⟨.hexadecimal known nonempty all, split⟩
  · obtain ⟨split, decimal, -⟩ := run_digits.mp plain
    exact ⟨.decimal decimal, split⟩

/-- A number is taken whole, whichever way it is written. -/
theorem IsInteger.run (number : IsInteger n) (stops : Stops isNameChar rest) :
    integer.run (n ++ rest) = some (n, rest) := by
  have ends {holds : Char → Bool} (named : ∀ c, holds c = true → isNameChar c = true) :
      Stops holds rest :=
    fun c first => Bool.eq_false_iff.mpr fun own => by
      have not := stops c first
      rw [named c own] at not
      cases not
  rw [integer, run_orElse, Option.or_eq_some_iff]
  cases number with
  | hexadecimal marked some digits =>
    exact .inl (run_hexadecimal.mpr ⟨_, _, marked, rfl, rfl, some, digits,
      ends fun _ => isNameChar_of_isHexDigit⟩)
  | decimal decimal =>
    refine .inr ⟨?_, run_digits.mpr ⟨rfl, decimal, ends fun _ => isNameChar_of_isDigit⟩⟩
    refine Option.eq_none_iff_forall_ne_some.mpr ?_
    rintro ⟨found, tail⟩ taken
    obtain ⟨mark, ds, marked, rfl, split, -⟩ := run_hexadecimal.mp taken
    -- The mark would be a digit of the number or the first character behind it.
    cases n with
    | nil => exact decimal.nonempty rfl
    | cons zero more =>
      cases more with
      | nil =>
        have behind : rest = mark :: (ds ++ tail) := (List.cons.inj split).2
        have not := stops mark (by rw [behind]; rfl)
        rcases marked with rfl | rfl <;> cases not
      | cons second more =>
        have digit := decimal.digits mark (by simp [(List.cons.inj (List.cons.inj split).2).1])
        rcases marked with rfl | rfl <;> cases digit

theorem IsInteger.inked (number : IsInteger n) : Inked n := by
  cases number with
  | decimal decimal => exact decimal.inked
  | hexadecimal marked some digits =>
    refine ⟨by simp, List.forall_mem_cons.mpr ⟨by decide, List.forall_mem_cons.mpr ⟨?_, ?_⟩⟩⟩
    · rcases marked with rfl | rfl <;> decide
    · exact fun c inside => isWhiteSpace_of_isNameChar (isNameChar_of_isHexDigit (digits c inside))

theorem IsInteger.start (number : IsInteger n) : ∃ c ∈ n.head?, c.isDigit = true := by
  cases number with
  | decimal decimal => exact decimal.start
  | hexadecimal => exact ⟨'0', rfl, rfl⟩

/-- A number starts with nothing but a digit. -/
theorem IsInteger.head_ne {c : Char} (number : IsInteger n) (other : c.isDigit = false) :
    n.head? ≠ some c := by
  obtain ⟨digit, first, own⟩ := number.start
  rw [Option.mem_def.mp first]
  rintro ⟨⟩
  rw [own] at other
  cases other

end PacketSpec.Cell
