import PacketSpec.Proofs.Cell.Elements
import PacketSpec.Proofs.Size
import PacketSpec.Proofs.Text.Case

/-! Which texts are type cells. A text is read if and only if it is made of the elements of a type
cell, although no option of the grammar is given back once it has been taken: the elements start in
different ways, so that none of them can be taken for another. -/
namespace PacketSpec.Cell

open Scan Grammar

structure IsDecimal (numeral : Numeral) : Prop where
  nonempty : numeral ≠ []
  digits : ∀ c ∈ numeral, c.isDigit = true

structure IsIdentifier (name : String) : Prop where
  nonempty : name.toList ≠ []
  chars : ∀ c ∈ name.toList, c.isAlphanum = true ∨ c = '_'
  start : ∀ c ∈ name.toList.head?, c.isDigit = false

def TypeKind.letter : TypeKind → Char
  | .unsigned => 'u'
  | .signed => 'i'
  | .bits => 'b'
  | .rational => 'R'

namespace MultiplierOf

def Proper : MultiplierOf Numeral → Prop
  | .count n => IsDecimal n
  | .field name => IsIdentifier name

def elements : MultiplierOf Numeral → List (List Char)
  | .count n => [n, "*".toList]
  | .field name => ["[=".toList, name.toList, "=]".toList, "*".toList]

def numerals : MultiplierOf Numeral → List Numeral
  | .count n => [n]
  | .field _ => []

def map {ν μ : Type} (f : ν → μ) : MultiplierOf ν → MultiplierOf μ
  | .count n => .count (f n)
  | .field name => .field name

end MultiplierOf

namespace TypeOf

/-- The numbers are decimal, and a multiplier that is no number is an identifier. -/
structure Proper (cell : TypeOf Numeral) : Prop where
  multiplier : ∀ m ∈ cell.multiplier, m.Proper
  width : IsDecimal cell.width

def base (cell : TypeOf Numeral) (closing : Bool) : List (List Char) :=
  [cell.kind.letter] :: "(".toList :: cell.width :: ")".toList :: optionally closing "'".toList

/-- All elements of a cell, with an opening quote or a closing one or both or none. -/
def elements (cell : TypeOf Numeral) (opening closing : Bool) : List (List Char) :=
  optionally opening "'".toList ++
    (cell.multiplier.elim [] MultiplierOf.elements ++ cell.base closing)

def numerals (cell : TypeOf Numeral) : List Numeral :=
  cell.multiplier.elim [] MultiplierOf.numerals ++ [cell.width]

def map {ν μ : Type} (f : ν → μ) (cell : TypeOf ν) : TypeOf μ :=
  ⟨cell.multiplier.map (MultiplierOf.map f), cell.kind, f cell.width⟩

def WrittenAs (cell : TypeOf Numeral) (text : String) : Prop :=
  cell.Proper ∧ ∃ opening closing, Stands (cell.elements opening closing) text.toList

end TypeOf

def firstLarge (numerals : List Numeral) : Option Numeral :=
  numerals.find? fun n => Size.bound ≤ Text.ofDigits 10 n

theorem isNameChar_iff {c : Char} : isNameChar c = true ↔ c.isAlphanum = true ∨ c = '_' := by
  simp [isNameChar]

theorem isWhiteSpace_of_isNameChar {c : Char} (named : isNameChar c = true) :
    Text.isWhiteSpace c = false := by
  have small : c.toNat < 128 := by
    rcases isNameChar_iff.mp named with word | rfl
    · exact Text.ascii_of_alphanum word
    · decide
  exact Text.ascii_forall (P := fun c => isNameChar c = true → Text.isWhiteSpace c = false)
    (by decide) small named

theorem isNameChar_of_isDigit {c : Char} (digit : c.isDigit = true) : isNameChar c = true := by
  simp [isNameChar, Char.isAlphanum, digit]

theorem isNameChar_of_isBlank (c : Char) (blank : isBlank c = true) : isNameChar c = false := by
  refine Bool.eq_false_iff.mpr fun named => ?_
  have white := isWhiteSpace_of_isBlank blank
  rw [isWhiteSpace_of_isNameChar named] at white
  cases white

theorem isDigit_of_isBlank (c : Char) (blank : isBlank c = true) : c.isDigit = false := by
  refine Bool.eq_false_iff.mpr fun digit => ?_
  have named := isNameChar_of_isBlank c blank
  rw [isNameChar_of_isDigit digit] at named
  cases named

theorem IsDecimal.inked {numeral : Numeral} (decimal : IsDecimal numeral) : Inked numeral :=
  ⟨decimal.nonempty, fun c inside =>
    isWhiteSpace_of_isNameChar (isNameChar_of_isDigit (decimal.digits c inside))⟩

theorem IsIdentifier.inked {name : String} (identifier : IsIdentifier name) : Inked name.toList :=
  ⟨identifier.nonempty, fun c inside =>
    isWhiteSpace_of_isNameChar (isNameChar_iff.mpr (identifier.chars c inside))⟩

theorem TypeKind.inked (kind : TypeKind) : Inked [kind.letter] := by
  cases kind <;> decide

variable {text rest : List Char} {others : List (List Char)}

theorem run_digits {n : Numeral} :
    digits.run text = some (n, rest) ↔
      text = n ++ rest ∧ IsDecimal n ∧ Stops Char.isDigit rest := by
  rw [digits, run_many1]
  constructor
  · rintro ⟨split, nonempty, all, stops⟩
    exact ⟨split, ⟨nonempty, all⟩, stops⟩
  · rintro ⟨split, decimal, stops⟩
    exact ⟨split, decimal.nonempty, decimal.digits, stops⟩

theorem run_identifier {name : String} :
    identifier.run text = some (name, rest) ↔
      text = name.toList ++ rest ∧ IsIdentifier name ∧ Stops isNameChar rest := by
  rw [identifier, run_bind_eq_some]
  constructor
  · rintro ⟨chars, middle, first, second⟩
    obtain ⟨rfl, nonempty, all, stops⟩ := run_many1.mp first
    split at second
    · cases second
    · next start =>
      obtain ⟨rfl, rfl⟩ := run_pure_eq_some.mp second
      refine ⟨by simp, ⟨by simpa using nonempty, ?_, ?_⟩, stops⟩
      · simpa [isNameChar_iff] using all
      · intro c head
        simp at head
        simpa [head] using start
  · rintro ⟨rfl, ⟨nonempty, chars, start⟩, stops⟩
    refine ⟨name.toList, rest, ?_, ?_⟩
    · exact run_many1.mpr ⟨rfl, nonempty, fun c inside => isNameChar_iff.mpr (chars c inside), stops⟩
    · obtain ⟨c, word, split⟩ := List.exists_cons_of_ne_nil nonempty
      rw [split] at start ⊢
      rw [if_neg (by simpa using start), ← split, String.ofList_toList]
      rfl

theorem run_marked {α : Type} {mark : String} {own found : α} :
    (do exactly mark; pure own : Scan α).run text = some (found, rest) ↔
      text = mark.toList ++ rest ∧ own = found := by
  rw [run_bind_eq_some]
  constructor
  · rintro ⟨_, middle, first, second⟩
    obtain ⟨rfl, rfl⟩ := run_pure_eq_some.mp second
    exact ⟨run_exactly.mp first, rfl⟩
  · rintro ⟨split, rfl⟩
    exact ⟨(), rest, run_exactly.mpr split, rfl⟩

theorem run_typeKind {kind : TypeKind} :
    typeKind.run text = some (kind, rest) ↔ text = kind.letter :: rest := by
  constructor
  · intro run
    simp only [typeKind, run_orElse, Option.or_eq_some_iff, run_marked] at run
    rcases run with ⟨split, rfl⟩ | ⟨-, ⟨split, rfl⟩ | ⟨-, ⟨split, rfl⟩ | ⟨-, split, rfl⟩⟩⟩
    all_goals exact split
  · rintro rfl
    cases kind <;> rfl

theorem fieldRef_laid {name : String} (run : fieldRef.run text = some (name, rest))
    (laid : Laid others rest) :
    IsIdentifier name ∧ Laid ("[=".toList :: name.toList :: "=]".toList :: others) text := by
  simp only [fieldRef, run_bind_eq_some] at run
  obtain ⟨_, inner, opened, _, _, skipped, named, middle, taken, _, _, closed, done⟩ := run
  obtain ⟨rfl, rfl⟩ := run_pure_eq_some.mp done
  cases skipped
  obtain ⟨split, identifier, -⟩ := run_identifier.mp taken
  have named := Laid.cons split (laid.of_symbol closed)
  exact ⟨identifier, run_exactly.mp opened ▸ named.here⟩

theorem multiplier_laid {m : MultiplierOf Numeral} (run : multiplier.run text = some (m, rest))
    (laid : Laid others rest) : m.Proper ∧ Laid (m.elements ++ others) text := by
  simp only [multiplier, run_bind_eq_some] at run
  obtain ⟨_, middle, first, _, _, star, done⟩ := run
  obtain ⟨rfl, rfl⟩ := run_pure_eq_some.mp done
  have starred := laid.of_symbol star
  rw [run_orElse, Option.or_eq_some_iff] at first
  rcases first with count | ⟨-, field⟩
  · obtain ⟨n, taken, rfl⟩ := run_map_eq_some.mp count
    obtain ⟨rfl, decimal, -⟩ := run_digits.mp taken
    exact ⟨decimal, starred.here⟩
  · obtain ⟨name, taken, rfl⟩ := run_map_eq_some.mp field
    exact fieldRef_laid taken starred

theorem typeCell_laid {cell : TypeOf Numeral} (run : typeCell.run text = some (cell, rest)) :
    cell.Proper ∧ ∃ opening closing, Laid (cell.elements opening closing) text := by
  simp only [typeCell, run_bind_eq_some] at run
  obtain ⟨_, afterQuote, opened, _, _, blank, m, afterStar, multiplied, _, _, again, kind,
    afterLetter, lettered, _, afterBracket, bracket, _, _, third, width, afterWidth, wide, _,
    afterAll, unbracket, _, afterUnquote, closed, _, _, ended, done⟩ := run
  cases blank
  cases again
  cases third
  obtain ⟨rfl, -⟩ := run_pure_eq_some.mp done
  -- The elements are put together from the last one on.
  obtain ⟨closing, tail⟩ := (run_finish.mp ended).1.of_symbol? closed
  rw [List.append_nil] at tail
  obtain ⟨split, decimal, -⟩ := run_digits.mp wide
  have inner := Laid.cons split (tail.of_symbol unbracket)
  have base : Laid ([kind.letter] :: _) _ :=
    .cons (run_typeKind.mp lettered) (inner.of_symbol bracket)
  rcases run_option.mp multiplied with ⟨n, rfl, taken⟩ | ⟨rfl, -, rfl⟩
  · obtain ⟨proper, laid⟩ := multiplier_laid taken base
    obtain ⟨opening, whole⟩ := laid.of_dropWhile.of_symbol? opened
    exact ⟨⟨by simpa using proper, decimal⟩, opening, closing, whole⟩
  · obtain ⟨opening, whole⟩ := base.of_dropWhile.of_symbol? opened
    exact ⟨⟨by simp, decimal⟩, opening, closing, whole⟩

theorem IsDecimal.start {n : Numeral} (decimal : IsDecimal n) :
    ∃ c ∈ n.head?, c.isDigit = true := by
  obtain ⟨c, more, rfl⟩ := List.exists_cons_of_ne_nil decimal.nonempty
  exact ⟨c, rfl, decimal.digits c (by simp)⟩

theorem fieldRef_run {name : String} (identifier : IsIdentifier name)
    (laid : Laid ("[=".toList :: name.toList :: "=]".toList :: others) text) :
    ∃ tail, fieldRef.run (text.dropWhile isBlank) = some (name, tail) ∧ Laid others tail := by
  obtain ⟨inner, opened, laid⟩ := laid.dropWhile (by decide)
  obtain ⟨middle, split, laid⟩ := laid.dropWhile identifier.inked
  have stops := laid.stops isNameChar_of_isBlank ⟨'=', rfl, rfl⟩
  obtain ⟨tail, closed, laid⟩ := laid.symbol (by decide)
  refine ⟨tail, ?_, laid⟩
  simp only [fieldRef, run_bind_eq_some]
  exact ⟨(), inner, run_exactly.mpr opened, (), _, run_blanks, name, middle,
    run_identifier.mpr ⟨split, identifier, stops⟩, (), tail, closed, rfl⟩

/-- A multiplier starts with a digit or an opening bracket. -/
theorem multiplier_eq_none (stops : Stops Char.isDigit text) (other : ¬ "[=".toList <+: text) :
    multiplier.run text = none := by
  have uncounted : digits.run text = none := run_many1_eq_none stops
  have unnamed : fieldRef.run text = none := by
    rw [fieldRef, StateT.run_bind, run_exactly_eq_none.mpr other]
    rfl
  rw [multiplier, StateT.run_bind, run_orElse, StateT.run_map, StateT.run_map, uncounted, unnamed]
  rfl

theorem multiplier_run {m : MultiplierOf Numeral} (proper : m.Proper)
    (laid : Laid (m.elements ++ others) text) :
    ∃ tail, multiplier.run (text.dropWhile isBlank) = some (m, tail) ∧ Laid others tail := by
  simp only [multiplier, run_bind_eq_some, run_orElse, Option.or_eq_some_iff]
  cases m with
  | count n =>
    obtain ⟨middle, split, laid⟩ := Laid.dropWhile laid proper.inked
    have stops := laid.stops isDigit_of_isBlank ⟨'*', rfl, rfl⟩
    have taken := run_digits.mpr ⟨split, proper, stops⟩
    obtain ⟨tail, star, laid⟩ := Laid.symbol laid (by decide)
    exact ⟨tail, ⟨_, middle, .inl (run_map_eq_some.mpr ⟨n, taken, rfl⟩), (), tail, star, rfl⟩, laid⟩
  | field name =>
    obtain ⟨inner, opened, -⟩ := Laid.dropWhile laid (by decide)
    have uncounted : digits.run (text.dropWhile isBlank) = none :=
      run_many1_eq_none (by simp [Stops, opened])
    obtain ⟨middle, taken, laid⟩ := fieldRef_run proper laid
    obtain ⟨tail, star, laid⟩ := Laid.symbol laid (by decide)
    refine ⟨tail, ⟨_, middle, .inr ⟨?_, run_map_eq_some.mpr ⟨name, taken, rfl⟩⟩, (), tail, star,
      rfl⟩, laid⟩
    rw [StateT.run_map, uncounted]
    rfl

theorem optionally_inked {mark : List Char} (present : Bool) (ink : Inked mark) :
    ∀ element ∈ optionally present mark, Inked element := by
  cases present with
  | true => simpa [optionally] using ink
  | false => simp [optionally]

theorem MultiplierOf.Proper.inked {m : MultiplierOf Numeral} (proper : m.Proper) :
    ∀ element ∈ m.elements, Inked element := by
  cases m with
  | count n => simpa [elements] using ⟨IsDecimal.inked proper, by decide⟩
  | field name => simpa [elements] using ⟨by decide, IsIdentifier.inked proper, by decide⟩

theorem TypeOf.Proper.inked {cell : TypeOf Numeral} (proper : cell.Proper)
    (opening closing : Bool) :
    ∀ element ∈ cell.elements opening closing, Inked element := by
  have multiplier : ∀ element ∈ cell.multiplier.elim [] MultiplierOf.elements, Inked element := by
    cases written : cell.multiplier with
    | none => simp
    | some m => exact (proper.multiplier m written).inked
  simp only [elements, base, List.forall_mem_append, List.forall_mem_cons]
  exact ⟨optionally_inked opening (by decide), multiplier, cell.kind.inked, by decide,
    proper.width.inked, by decide, optionally_inked closing (by decide)⟩

/-- What follows the opening quote is no quote. -/
theorem TypeOf.Proper.start {cell : TypeOf Numeral} (proper : cell.Proper) (closing : Bool) :
    ∀ element ∈ (cell.multiplier.elim [] MultiplierOf.elements ++ cell.base closing).head?,
      Inked element ∧ element.head? ≠ "'".toList.head? := by
  intro element first
  have ink := proper.inked false closing element (List.mem_of_mem_head? first)
  refine ⟨ink, ?_⟩
  cases written : cell.multiplier with
  | none =>
    obtain rfl : [cell.kind.letter] = element := by simpa [written, base] using first
    cases cell.kind <;> decide
  | some m =>
    have own := proper.multiplier m written
    cases m with
    | count n =>
      obtain rfl : n = element := by simpa [written, MultiplierOf.elements] using first
      obtain ⟨c, head, digit⟩ := IsDecimal.start own
      rw [Option.mem_def.mp head]
      intro same
      obtain rfl : c = '\'' := by simpa using same
      cases digit
    | field name =>
      obtain rfl : "[=".toList = element := by simpa [written, MultiplierOf.elements] using first
      decide

/-- The option of a multiplier is left if and only if there is none. -/
theorem option_multiplier_run {multiplier : Option (MultiplierOf Numeral)} {kind : TypeKind}
    (proper : ∀ m ∈ multiplier, m.Proper)
    (laid : Laid (multiplier.elim [] MultiplierOf.elements ++ [kind.letter] :: others) text) :
    ∃ tail, (option Grammar.multiplier).run (text.dropWhile isBlank) = some (multiplier, tail) ∧
      Laid ([kind.letter] :: others) tail := by
  cases multiplier with
  | none =>
    obtain ⟨tail, lettered, laid⟩ := Laid.dropWhile laid kind.inked
    refine ⟨_, run_option.mpr (.inr ⟨rfl, ?_, rfl⟩), lettered ▸ laid.here⟩
    rw [lettered]
    exact multiplier_eq_none (by cases kind <;> simp [Stops, TypeKind.letter])
      (by cases kind <;> simp [TypeKind.letter])
  | some m =>
    obtain ⟨tail, taken, laid⟩ := multiplier_run (proper m rfl) laid
    exact ⟨tail, run_option.mpr (.inl ⟨m, rfl, taken⟩), laid⟩

theorem typeCell_run {cell : TypeOf Numeral} {opening closing : Bool} (proper : cell.Proper)
    (laid : Laid (cell.elements opening closing) text) : typeCell.run text = some (cell, []) := by
  simp only [typeCell, run_bind_eq_some]
  obtain ⟨afterQuote, opened, laid⟩ := laid.symbol? (by decide) (proper.start closing)
  obtain ⟨afterStar, multiplied, laid⟩ := option_multiplier_run proper.multiplier laid
  obtain ⟨afterLetter, lettered, laid⟩ := laid.dropWhile cell.kind.inked
  obtain ⟨afterBracket, bracket, laid⟩ := laid.symbol (by decide)
  obtain ⟨afterWidth, wide, laid⟩ := laid.dropWhile proper.width.inked
  have stops := laid.stops isDigit_of_isBlank ⟨')', rfl, rfl⟩
  obtain ⟨afterAll, unbracket, laid⟩ := laid.symbol (by decide)
  -- nothing follows the closing quote, so it cannot be taken for something else
  rw [← List.append_nil (optionally closing _)] at laid
  obtain ⟨afterUnquote, closed, laid⟩ := laid.symbol? (by decide) (by simp)
  exact ⟨(), afterQuote, opened, (), _, run_blanks, cell.multiplier, afterStar, multiplied, (), _,
    run_blanks, cell.kind, afterLetter, run_typeKind.mpr lettered, (), afterBracket, bracket, (), _,
    run_blanks, cell.width, afterWidth, run_digits.mpr ⟨wide, proper.width, stops⟩, (), afterAll,
    unbracket, (), afterUnquote, closed, (), [], run_finish.mpr ⟨laid, rfl⟩, rfl⟩

theorem scanWhole_typeCell {cell : TypeOf Numeral} {text : String} :
    scanWhole typeCell text = .ok cell ↔ cell.WrittenAs text := by
  have filled (opening closing : Bool) : cell.elements opening closing ≠ [] := by
    simp [TypeOf.elements, TypeOf.base]
  have around (proper : cell.Proper) (opening closing : Bool) :
      Stands (cell.elements opening closing) text.toList ↔
        Laid (cell.elements opening closing) (Text.trimList text.toList) :=
    stands_iff_laid (filled opening closing) (proper.inked opening closing)
  rw [scanWhole_eq_ok]
  constructor
  · rintro ⟨rest, run⟩
    obtain ⟨proper, opening, closing, laid⟩ := typeCell_laid run
    exact ⟨proper, opening, closing, (around proper opening closing).mpr laid⟩
  · rintro ⟨proper, opening, closing, stands⟩
    exact ⟨[], typeCell_run proper ((around proper opening closing).mp stands)⟩

def converted {α : Type} (numerals : List Numeral) (part : α) : Except Error α :=
  (firstLarge numerals).elim (.ok part) fun n => .error (.notAnInteger (String.ofList n))

theorem IsDecimal.toNat_eq {n : Numeral} (decimal : IsDecimal n) :
    n.toNat = Text.ofDigits 10 n := by
  unfold Numeral.toNat
  split
  · exact absurd (decimal.digits 'x' (by simp)) (by decide)
  · exact absurd (decimal.digits 'X' (by simp)) (by decide)
  · rfl

theorem IsDecimal.value_eq {n : Numeral} (decimal : IsDecimal n) :
    n.value = converted [n] (Text.ofDigits 10 n) := by
  rw [Numeral.value, decimal.toNat_eq, converted, firstLarge]
  split
  · next small => simp [small]
  · next large => simp [Nat.le_of_not_lt large]

theorem MultiplierOf.Proper.value_eq {m : MultiplierOf Numeral} (proper : m.Proper) :
    m.value = converted m.numerals (m.map (Text.ofDigits 10)) := by
  cases m with
  | count n =>
    rw [value, IsDecimal.value_eq proper, numerals, converted, converted]
    cases firstLarge [n] <;> rfl
  | field name => rfl

theorem TypeOf.Proper.value_eq {cell : TypeOf Numeral} (proper : cell.Proper) :
    cell.value = converted cell.numerals (cell.map (Text.ofDigits 10)) := by
  obtain ⟨multiplier, kind, width⟩ := cell
  have wide := proper.width.value_eq
  cases multiplier with
  | none =>
    simp only [value, wide, converted, numerals, Option.elim_none, List.nil_append]
    cases firstLarge [width] <;> rfl
  | some m =>
    have times := (proper.multiplier m rfl).value_eq
    have both : firstLarge (m.numerals ++ [width]) =
        (firstLarge m.numerals).or (firstLarge [width]) := List.find?_append
    simp only [value, Option.mapM_some, times, wide, converted, numerals, Option.elim_some, both]
    cases firstLarge m.numerals
    · cases firstLarge [width] <;> rfl
    · rfl

/-- A text is read as a type cell if and only if it is made of the elements of one and its numbers
have 64 bits. The first number that is larger is refused, and a text without these elements is
malformed. -/
theorem readType_exact (text : String) :
    (∀ cell, readType text = .ok cell ↔ ∃ spelled : TypeOf Numeral, spelled.WrittenAs text ∧
      (∀ n ∈ spelled.numerals, Text.ofDigits 10 n < Size.bound) ∧
      cell = spelled.map (Text.ofDigits 10)) ∧
    (∀ spelled : TypeOf Numeral, spelled.WrittenAs text →
      ∀ n, firstLarge spelled.numerals = some n →
        readType text = .error (.notAnInteger (String.ofList n))) ∧
    ((∀ spelled : TypeOf Numeral, ¬ spelled.WrittenAs text) →
      readType text = .error (.malformed text)) := by
  have small {numerals : List Numeral} : firstLarge numerals = none ↔
      ∀ n ∈ numerals, Text.ofDigits 10 n < Size.bound := by
    simp [firstLarge]
  have read {spelled : TypeOf Numeral} (written : spelled.WrittenAs text) :
      readType text = converted spelled.numerals (spelled.map (Text.ofDigits 10)) := by
    rw [readType, scanWhole_typeCell.mpr written]
    exact written.1.value_eq
  refine ⟨fun cell => ⟨fun ok => ?_, ?_⟩, ?_, ?_⟩
  · obtain ⟨spelled, scanned, -⟩ := bind_eq_ok.mp ok
    have written := scanWhole_typeCell.mp scanned
    rw [read written, converted] at ok
    cases first : firstLarge spelled.numerals with
    | none =>
      rw [first] at ok
      exact ⟨spelled, written, small.mp first, (Except.ok.inj ok).symm⟩
    | some n =>
      rw [first] at ok
      cases ok
  · rintro ⟨spelled, written, fits, rfl⟩
    rw [read written, converted, small.mpr fits]
    rfl
  · intro spelled written n first
    rw [read written, converted, first]
    rfl
  · intro unwritten
    have malformed := scanWhole_eq_error fun spelled scanned =>
      unwritten spelled (scanWhole_typeCell.mp scanned)
    rw [readType, malformed]
    rfl

example : readType "\u00a0' [= len =]*\tR (07 )" = .ok ⟨some (.field "len"), .rational, 7⟩ := rfl

end PacketSpec.Cell
