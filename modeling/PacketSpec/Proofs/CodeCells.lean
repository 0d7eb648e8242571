import PacketSpec.Proofs.Cell.Numerals

/-! Codes in their wrappers. Value brackets begin like square brackets, and an opening square bracket
that has been taken is never given back: value brackets with nothing around them are refused. -/
namespace PacketSpec.Cell

open Scan Grammar

structure Wrapping where
  value : Bool
  quotes : Bool
  square : Bool
  deriving DecidableEq, Repr

def enclosed (present : Bool) (opening closing : String) (elements : List (List Char)) :
    List (List Char) :=
  optionally present opening.toList ++ elements ++ optionally present closing.toList

namespace Wrapping

/-- Value brackets are the innermost wrapper and square brackets the outermost. -/
def elements (wrapping : Wrapping) (n : Numeral) : List (List Char) :=
  enclosed wrapping.square "[" "]" <|
    enclosed wrapping.quotes "'" "'" <| enclosed wrapping.value "[=" "=]" [n]

def isBare (wrapping : Wrapping) : Bool :=
  wrapping.value && !wrapping.quotes && !wrapping.square

def closing (wrapping : Wrapping) (others : List (List Char)) : List (List Char) :=
  optionally wrapping.value "=]".toList ++
    (optionally wrapping.quotes "'".toList ++ (optionally wrapping.square "]".toList ++ others))

theorem elements_append (wrapping : Wrapping) (n : Numeral) (others : List (List Char)) :
    wrapping.elements n ++ others = optionally wrapping.square "[".toList ++
      (optionally wrapping.quotes "'".toList ++
        (optionally wrapping.value "[=".toList ++ n :: wrapping.closing others)) := by
  simp [elements, enclosed, closing]

end Wrapping

variable {n m : Numeral} {text rest : List Char} {others : List (List Char)}

namespace Wrapping

variable {wrapping : Wrapping}

/-- A square bracket is taken as such if it is there, or if no value brackets come first. -/
theorem square_run (number : IsInteger n) (covered : wrapping.isBare = false)
    (laid : Laid (wrapping.elements n ++ others) text) :
    ∃ tail, (symbol? "[").run text = some ((), tail) ∧
      Laid (optionally wrapping.quotes "'".toList ++
        (optionally wrapping.value "[=".toList ++ n :: wrapping.closing others)) tail := by
  rw [elements_append] at laid
  obtain ⟨value, quotes, square⟩ := wrapping
  cases square with
  | true =>
    obtain ⟨tail, split, rest⟩ := Laid.dropWhile laid (by decide)
    exact ⟨tail, run_symbol?.mpr (.inl split), rest⟩
  | false =>
    refine laid.symbol? (by decide) ?_
    have digit : Inked n ∧ n.head? ≠ "[".toList.head? := ⟨number.inked, number.head_ne rfl⟩
    cases quotes with
    | true =>
      have quote : Inked "'".toList ∧ "'".toList.head? ≠ "[".toList.head? := by decide
      simpa [optionally] using quote
    | false =>
      cases value with
      | true => cases covered
      | false => simpa [optionally] using digit

theorem opening_run (number : IsInteger n)
    (laid : Laid (optionally wrapping.quotes "'".toList ++
      (optionally wrapping.value "[=".toList ++ n :: wrapping.closing others)) text) :
    ∃ middle tail, (symbol? "'").run text = some ((), middle) ∧
      (symbol? "[=").run middle = some ((), tail) ∧ Laid (n :: wrapping.closing others) tail := by
  have quote : Inked n ∧ n.head? ≠ "'".toList.head? := ⟨number.inked, number.head_ne rfl⟩
  have bracket : Inked n ∧ n.head? ≠ "[=".toList.head? := ⟨number.inked, number.head_ne rfl⟩
  obtain ⟨middle, quoted, laid⟩ := laid.symbol? (by decide)
    (forall_head_optionally (by decide) (by simpa using quote))
  obtain ⟨tail, opened, laid⟩ := laid.symbol? (by decide) (by simpa using bracket)
  exact ⟨middle, tail, quoted, opened, laid⟩

/-- What follows the number does not continue it. -/
theorem closing_stops (next : ∀ element ∈ others.head?, element = ":".toList)
    (laid : Laid (wrapping.closing others) text) : Stops isNameChar text := by
  refine laid.stops_of_head isNameChar_of_isBlank ?_
  refine forall_head_optionally ⟨'=', rfl, rfl⟩ (forall_head_optionally ⟨'\'', rfl, rfl⟩
    (forall_head_optionally ⟨']', rfl, rfl⟩ fun element first => ?_))
  rw [next element first]
  exact ⟨':', rfl, rfl⟩

theorem closing_run (next : ∀ element ∈ others.head?, element = ":".toList)
    (laid : Laid (wrapping.closing others) text) :
    ∃ first second tail, (symbol? "=]").run text = some ((), first) ∧
      (symbol? "'").run first = some ((), second) ∧ (symbol? "]").run second = some ((), tail) ∧
      Laid others tail := by
  have colon {mark : String} (other : mark.toList.head? ≠ some ':') : ∀ element ∈ others.head?,
      Inked element ∧ element.head? ≠ mark.toList.head? := by
    intro element first
    rw [next element first]
    exact ⟨by decide, other.symm⟩
  obtain ⟨first, valued, laid⟩ := laid.symbol? (by decide) (forall_head_optionally (by decide)
    (forall_head_optionally (by decide) (colon (by decide))))
  obtain ⟨second, quoted, laid⟩ := laid.symbol? (by decide) (forall_head_optionally (by decide)
    (colon (by decide)))
  obtain ⟨tail, squared, laid⟩ := laid.symbol? (by decide) (colon (by decide))
  exact ⟨first, second, tail, valued, quoted, squared, laid⟩

end Wrapping

theorem codeValue_run {wrapping : Wrapping} (number : IsInteger n)
    (covered : wrapping.isBare = false) (next : ∀ element ∈ others.head?, element = ":".toList)
    (laid : Laid (wrapping.elements n ++ others) text) :
    ∃ tail, codeValue.run (text.dropWhile isBlank) = some (n, tail) ∧ Laid others tail := by
  obtain ⟨afterSquare, squared, laid⟩ := wrapping.square_run number covered laid
  obtain ⟨afterQuote, inner, quoted, valued, laid⟩ := wrapping.opening_run number laid
  obtain ⟨afterNumber, split, laid⟩ := laid.dropWhile number.inked
  have taken := number.run (wrapping.closing_stops next laid)
  obtain ⟨first, second, tail, unvalued, unquoted, unsquared, laid⟩ := wrapping.closing_run next laid
  refine ⟨tail, ?_, laid⟩
  rw [run_symbol?_eq] at squared
  simp only [codeValue, run_bind_eq_some]
  exact ⟨(), afterSquare, squared, (), afterQuote, quoted, (), inner, valued, (), _, run_blanks, n,
    afterNumber, split ▸ taken, (), first, unvalued, (), second, unquoted, (), tail, unsquared, rfl⟩

/-- The opening bracket is taken for a square one, and no number follows it. -/
theorem codeValue_bare {wrapping : Wrapping} (bare : wrapping.isBare = true)
    (laid : Laid (wrapping.elements n ++ others) text) :
    codeValue.run (text.dropWhile isBlank) = none := by
  obtain ⟨value, quotes, square⟩ := wrapping
  cases value <;> cases quotes <;> cases square <;> cases bare
  obtain ⟨tail, split, -⟩ := Laid.dropWhile laid (by decide)
  rw [split]
  rfl

section Cells

variable {first second : Wrapping}

theorem codeCell_run (number : IsInteger n) (covered : first.isBare = false)
    (laid : Laid (first.elements n) text) : codeCell.run text = some (n, []) := by
  rw [← List.append_nil (first.elements n)] at laid
  obtain ⟨tail, taken, laid⟩ := codeValue_run number covered (by simp) laid
  simp only [codeCell, run_bind_eq_some]
  exact ⟨(), _, run_blanks, n, tail, taken, (), [], run_finish.mpr ⟨laid, rfl⟩, rfl⟩

theorem codeCell_bare (bare : first.isBare = true) (laid : Laid (first.elements n) text) :
    codeCell.run text = none := by
  rw [← List.append_nil (first.elements n)] at laid
  have refused := codeValue_bare bare laid
  rw [codeCell, StateT.run_bind, run_blanks]
  simp [refused]

theorem codeRangeCell_single (number : IsInteger n) (covered : first.isBare = false)
    (laid : Laid (first.elements n) text) : codeRangeCell.run text = some ((n, none), []) := by
  rw [← List.append_nil (first.elements n)] at laid
  obtain ⟨tail, taken, laid⟩ := codeValue_run number covered (by simp) laid
  have alone : (do exactly ":"; blanks; codeValue : Scan Numeral).run [] = none := rfl
  simp only [codeRangeCell, run_bind_eq_some]
  refine ⟨(), _, run_blanks, n, tail, taken, (), [], ?_, none, [], ?_, (), [], ?_, rfl⟩
  · rw [run_blanks, laid.dropWhile_nil]
  · exact run_option.mpr (.inr ⟨rfl, alone, rfl⟩)
  · exact run_finish.mpr ⟨by simp [Laid, Blanks], rfl⟩

theorem codeRangeCell_pair (number : IsInteger n) (other : IsInteger m)
    (covered : first.isBare = false) (too : second.isBare = false)
    (laid : Laid (first.elements n ++ ":".toList :: second.elements m) text) :
    codeRangeCell.run text = some ((n, some m), []) := by
  obtain ⟨tail, taken, laid⟩ := codeValue_run number covered (by simp) laid
  obtain ⟨inner, colon, laid⟩ := laid.dropWhile (by decide)
  rw [← List.append_nil (second.elements m)] at laid
  obtain ⟨last, ended, laid⟩ := codeValue_run other too (by simp) laid
  simp only [codeRangeCell, run_bind_eq_some]
  refine ⟨(), _, run_blanks, n, tail, taken, (), _, run_blanks, some m, last, ?_, (), [],
    run_finish.mpr ⟨laid, rfl⟩, rfl⟩
  refine run_option.mpr (.inl ⟨m, rfl, ?_⟩)
  simp only [run_bind_eq_some]
  exact ⟨(), inner, run_exactly.mpr colon, (), _, run_blanks, ended⟩

theorem codeRangeCell_first_bare (bare : first.isBare = true)
    (laid : Laid (first.elements n ++ others) text) : codeRangeCell.run text = none := by
  have refused := codeValue_bare bare laid
  rw [codeRangeCell, StateT.run_bind, run_blanks]
  simp [refused]

/-- If the second code is not read, then its colon is left over. -/
theorem codeRangeCell_second_bare (number : IsInteger n) (covered : first.isBare = false)
    (bare : second.isBare = true)
    (laid : Laid (first.elements n ++ ":".toList :: second.elements m) text) :
    codeRangeCell.run text = none := by
  obtain ⟨tail, taken, laid⟩ := codeValue_run number covered (by simp) laid
  obtain ⟨inner, colon, laid⟩ := laid.dropWhile (by decide)
  rw [← List.append_nil (second.elements m)] at laid
  have refused := codeValue_bare bare laid
  refine Option.eq_none_iff_forall_ne_some.mpr ?_
  rintro ⟨range, rest⟩ run
  simp only [codeRangeCell, run_bind_eq_some] at run
  obtain ⟨_, _, skipped, start, left, begun, _, _, again, stop, end_, optional, _, _, ended, -⟩ := run
  cases skipped
  obtain ⟨rfl, rfl⟩ := Prod.mk.inj (Option.some.inj (taken.symm.trans begun))
  cases again
  rw [colon] at optional
  rcases run_option.mp optional with ⟨code, -, read⟩ | ⟨-, -, rfl⟩
  · simp only [run_bind_eq_some] at read
    obtain ⟨_, _, marked, _, _, blank, read⟩ := read
    cases blank
    obtain rfl := List.append_cancel_left (run_exactly.mp marked)
    rw [refused] at read
    cases read
  · cases (run_finish.mp ended).1.dropWhile_nil

end Cells

theorem enclosed_inked {present : Bool} {opening closing : String} {elements : List (List Char)}
    (before : Inked opening.toList) (after : Inked closing.toList)
    (inner : ∀ element ∈ elements, Inked element) :
    ∀ element ∈ enclosed present opening closing elements, Inked element := by
  rw [enclosed, List.forall_mem_append, List.forall_mem_append]
  exact ⟨⟨optionally_inked present before, inner⟩, optionally_inked present after⟩

theorem Wrapping.inked (wrapping : Wrapping) (number : IsInteger n) :
    ∀ element ∈ wrapping.elements n, Inked element :=
  enclosed_inked (by decide) (by decide) <| enclosed_inked (by decide) (by decide) <|
    enclosed_inked (by decide) (by decide) (by simpa using number.inked)

theorem Wrapping.elements_ne_nil (wrapping : Wrapping) (n : Numeral) :
    wrapping.elements n ≠ [] := by
  simp [elements, enclosed]

theorem readCode_of_run {cell : String} (small : n.toNat < Size.bound)
    (run : codeCell.run (Text.trimList cell.toList) = some (n, rest)) :
    readCode cell = .ok n.toNat := by
  rw [readCode, scanWhole_eq_ok.mpr ⟨rest, run⟩]
  exact Numeral.value_of_lt small

theorem readCodeRange_of_run {cell : String} {stop : Option Numeral} (small : n.toNat < Size.bound)
    (last : stop.getD n = m) (too : m.toNat < Size.bound)
    (run : codeRangeCell.run (Text.trimList cell.toList) = some ((n, stop), rest)) :
    readCodeRange cell = .ok (n.toNat, m.toNat) := by
  rw [readCodeRange, scanWhole_eq_ok.mpr ⟨rest, run⟩]
  simp only [bind, Except.bind]
  rw [last, Numeral.value_of_lt small, Numeral.value_of_lt too]
  rfl

theorem readCodeRange_of_none {cell : String}
    (run : codeRangeCell.run (Text.trimList cell.toList) = none) :
    readCodeRange cell = .error (.malformed cell) := by
  rw [readCodeRange, scanWhole, run]
  rfl

theorem read_single {first : Wrapping} {cell : String} (number : IsInteger n)
    (small : n.toNat < Size.bound) (stands : Stands (first.elements n) cell.toList) :
    readCode cell = (if first.isBare then .error (.malformed cell) else .ok n.toNat) ∧
      readCodeRange cell =
        if first.isBare then .error (.malformed cell) else .ok (n.toNat, n.toNat) := by
  have laid := (stands_iff_laid (first.elements_ne_nil n) (first.inked number)).mp stands
  cases bare : first.isBare with
  | true =>
    refine ⟨?_, readCodeRange_of_none ?_⟩
    · rw [readCode, scanWhole, codeCell_bare bare laid]
      rfl
    · rw [← List.append_nil (first.elements n)] at laid
      exact codeRangeCell_first_bare bare laid
  | false =>
    exact ⟨readCode_of_run small (codeCell_run number bare laid),
      readCodeRange_of_run small rfl small (codeRangeCell_single number bare laid)⟩

theorem read_pair {first second : Wrapping} {cell : String} (number : IsInteger n)
    (other : IsInteger m) (small : n.toNat < Size.bound) (too : m.toNat < Size.bound)
    (stands : Stands (first.elements n ++ ":".toList :: second.elements m) cell.toList) :
    readCodeRange cell =
      if first.isBare || second.isBare then .error (.malformed cell)
      else .ok (n.toNat, m.toNat) := by
  have ink : ∀ element ∈ first.elements n ++ ":".toList :: second.elements m, Inked element :=
    List.forall_mem_append.mpr ⟨first.inked number,
      List.forall_mem_cons.mpr ⟨by decide, second.inked other⟩⟩
  have laid := (stands_iff_laid (by simp) ink).mp stands
  cases bare : first.isBare with
  | true => exact readCodeRange_of_none (codeRangeCell_first_bare bare laid)
  | false =>
    cases again : second.isBare with
    | true => exact readCodeRange_of_none (codeRangeCell_second_bare number bare again laid)
    | false =>
      exact readCodeRange_of_run small rfl too (codeRangeCell_pair number other bare again laid)

/-- Codes of up to 64 bits are read in all wrappers but for value brackets alone. -/
theorem wrapped_codes_read {n m : Numeral} (number : IsInteger n) (other : IsInteger m)
    (small : n.toNat < Size.bound) (too : m.toNat < Size.bound) (first second : Wrapping)
    (cell : String) :
    (Stands (first.elements n) cell.toList →
      readCode cell = (if first.isBare then .error (.malformed cell) else .ok n.toNat) ∧
      readCodeRange cell =
        if first.isBare then .error (.malformed cell) else .ok (n.toNat, n.toNat)) ∧
    (Stands (first.elements n ++ ":".toList :: second.elements m) cell.toList →
      readCodeRange cell =
        if first.isBare || second.isBare then .error (.malformed cell)
        else .ok (n.toNat, m.toNat)) :=
  ⟨read_single number small, read_pair number other small too⟩

/-- All wrappers around the first code, square brackets around the second one. -/
theorem wrapped_codes_read_both :
    readCode "['[=0x1F=]']" = .ok 31 ∧ readCodeRange "['[=0x1F=]']:[32]" = .ok (31, 32) := by
  have number : IsInteger "0x1F".toList :=
    .hexadecimal (.inl rfl) (by simp) (List.all_eq_true.mp (by decide))
  have other : IsInteger "32".toList := .decimal ⟨by simp, List.all_eq_true.mp (by decide)⟩
  have read := wrapped_codes_read number other (by decide) (by decide)
    ⟨true, true, true⟩ ⟨false, false, true⟩
  exact ⟨((read _).1 (stands_flatten (Wrapping.elements_ne_nil _ _))).1,
    (read _).2 (stands_flatten (by simp))⟩

/-- The same code in value brackets alone is refused, on either side of a range. -/
theorem bare_codes_refused :
    IsInteger "16".toList ∧ Stands (Wrapping.elements ⟨true, false, false⟩ "16".toList)
      "[=16=]".toList ∧ readCode "[=16=]" = .error (.malformed "[=16=]") ∧
    readCodeRange "[=16=]:17" = .error (.malformed "[=16=]:17") ∧
    readCodeRange "15:[=16=]" = .error (.malformed "15:[=16=]") :=
  ⟨.decimal ⟨by simp, List.all_eq_true.mp (by decide)⟩,
    stands_flatten (Wrapping.elements_ne_nil _ _), rfl, rfl, rfl⟩

end PacketSpec.Cell
