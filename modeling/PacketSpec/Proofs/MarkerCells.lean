import PacketSpec.Proofs.Cell.Markers

/-! Which texts are value cells. A spelled marker is read as what it is, although the alternatives are
tried in order and the last one takes any text that speaks of a string. -/
namespace PacketSpec.Cell

open Scan Grammar

def Begins (text : List Char) : Prop :=
  ∃ m elements opened rest, Spelled m elements ∧
    Stands (optionally opened "'".toList ++ elements ++ [rest]) text

namespace MarkerOf

/-- What a value cell says. Quotes around a marker may be left out, each by itself. -/
inductive WrittenAs : MarkerOf Numeral → String → Prop
  | spelled {m : MarkerOf Numeral} {elements : List (List Char)} {cell : String}
      (spelled : Spelled m elements) (opened closed : Bool)
      (stands : Stands (optionally opened "'".toList ++ elements ++ optionally closed "'".toList)
        cell.toList) : WrittenAs m cell
  | string {cell : String} (speaks : "string".toList <:+: cell.toList)
      (other : ¬ Begins cell.toList) : WrittenAs .string cell
  | empty {cell : String} (white : White cell.toList) : WrittenAs .none cell
  | quotes {cell : String} (closed : Bool)
      (stands : Stands ("'".toList :: optionally closed "'".toList) cell.toList) :
      WrittenAs .none cell

def numerals : MarkerOf Numeral → List Numeral
  | .fixed n => [n]
  | .ldpc codeBits messageBits => [codeBits, messageBits]
  | _ => []

def map {ν μ : Type} (f : ν → μ) : MarkerOf ν → MarkerOf μ
  | .none => .none
  | .fixed n => .fixed (f n)
  | .payload => .payload
  | .string => .string
  | .ldpc codeBits messageBits => .ldpc (f codeBits) (f messageBits)
  | .enum key => .enum key
  | .struct key => .struct key
  | .template anchor => .template anchor

end MarkerOf

/-- The marker has numbers of 64 bits, and its names are keys and anchors. -/
def Marker.Proper : Marker → Prop
  | .fixed n => n < Size.bound
  | .ldpc codeBits messageBits => codeBits < Size.bound ∧ messageBits < Size.bound
  | .enum key => IsKey key
  | .struct key => IsKey key
  | .template anchor => IsAnchor anchor
  | _ => True

variable {text : List Char} {m : MarkerOf Numeral} {cell : String}

theorem isPartOf_iff {part : List Char} : Text.isPartOf part text = true ↔ part <:+: text := by
  induction text with
  | nil => simp [Text.isPartOf]
  | cons c rest ih =>
    rw [Text.isPartOf, Bool.or_eq_true, ih, List.isPrefixOf_iff_prefix, List.infix_cons_iff]

/-- A word stands nowhere in characters that it does not have. -/
theorem infix_append_iff {word before : List Char} (filled : word ≠ [])
    (apart : ∀ c ∈ before, c ∉ word) : word <:+: before ++ text ↔ word <:+: text := by
  induction before with
  | nil => rfl
  | cons c before ih =>
    obtain ⟨first, others⟩ := List.forall_mem_cons.mp apart
    rw [List.cons_append, List.infix_cons_iff, ih others]
    refine or_iff_right ?_
    rintro ⟨rest, split⟩
    obtain ⟨d, more, rfl⟩ := List.exists_cons_of_ne_nil filled
    obtain rfl : d = c := (List.cons.inj split).1
    exact first (.head _)

theorem append_infix_iff {word after : List Char} (filled : word ≠ [])
    (apart : ∀ c ∈ after, c ∉ word) : word <:+: text ++ after ↔ word <:+: text := by
  rw [← List.reverse_infix, List.reverse_append, infix_append_iff (by simpa using filled),
    List.reverse_infix]
  simpa using apart

theorem not_mem_string {c : Char} (white : Text.isWhiteSpace c = true) : c ∉ "string".toList := by
  intro inside
  have letters : Inked "string".toList := by decide
  rw [letters.2 c inside] at white
  cases white

theorem quote_apart : ∀ c ∈ "'".toList, c ∉ "string".toList :=
  List.forall_mem_singleton.mpr (by decide)

theorem speaks_trimList :
    "string".toList <:+: Text.trimList text ↔ "string".toList <:+: text := by
  obtain ⟨before, after, left, right, whole⟩ := exists_trimList text
  have around : "string".toList <:+: before ++ Text.trimList text ++ after ↔
      "string".toList <:+: Text.trimList text := by
    rw [append_infix_iff (by decide) fun c inside => not_mem_string (right c inside),
      infix_append_iff (by decide) fun c inside => not_mem_string (left c inside)]
  rw [← whole] at around
  exact around.symm

theorem speaks_dropWhile :
    "string".toList <:+: text.dropWhile isBlank ↔ "string".toList <:+: text := by
  have whole := List.takeWhile_append_dropWhile (p := isBlank) (l := text)
  have around : "string".toList <:+: text.takeWhile isBlank ++ text.dropWhile isBlank ↔
      "string".toList <:+: text.dropWhile isBlank :=
    infix_append_iff (by decide) fun c inside =>
      not_mem_string (isWhiteSpace_of_isBlank (blanks_takeWhile text c inside))
  rw [whole] at around
  exact around.symm

/-- An opening quote is no part of the word. -/
theorem speaks_symbol? {tail : List Char} (run : (symbol? "'").run text = some ((), tail)) :
    "string".toList <:+: tail ↔ "string".toList <:+: text := by
  refine Iff.trans ?_ speaks_dropWhile
  rcases run_symbol?.mp run with split | ⟨-, rfl⟩
  · rw [split, infix_append_iff (by decide) quote_apart]
  · rfl

theorem run_stringMarker {rest : List Char} :
    stringMarker.run text = some (m, rest) ↔
      "string".toList <:+: text ∧ m = .string ∧ rest = [] := by
  rw [← isPartOf_iff, StateT.run, stringMarker]
  constructor
  · intro run
    split at run
    · next speaks =>
      cases run
      exact ⟨speaks, rfl, rfl⟩
    · cases run
  · rintro ⟨speaks, rfl, rfl⟩
    exact if_pos speaks

theorem run_markerCell {rest : List Char} :
    markerCell.run text = some (m, rest) ↔ ∃ inner found left after,
      (symbol? "'").run text = some ((), inner) ∧
      (option marker).run (inner.dropWhile isBlank) = some (found, left) ∧
      (symbol? "'").run left = some ((), after) ∧ Laid [] after ∧ rest = [] ∧
      m = found.getD .none := by
  simp only [markerCell, run_bind_eq_some]
  constructor
  · rintro ⟨_, inner, opened, _, _, blank, found, left, read, _, after, closed, _, _, ended, done⟩
    cases blank
    obtain ⟨rfl, rfl⟩ := run_pure_eq_some.mp done
    obtain ⟨laid, rfl⟩ := run_finish.mp ended
    exact ⟨inner, found, left, after, opened, read, closed, laid, rfl, rfl⟩
  · rintro ⟨inner, found, left, after, opened, read, closed, laid, rfl, rfl⟩
    exact ⟨(), inner, opened, (), _, run_blanks, found, left, read, (), after, closed, (), [],
      run_finish.mpr ⟨laid, rfl⟩, rfl⟩

theorem Spelled.opening {elements others : List (List Char)} {opened : Bool}
    (spelled : Spelled m elements)
    (laid : Laid (optionally opened "'".toList ++ (elements ++ others)) text) :
    ∃ inner, (symbol? "'").run text = some ((), inner) ∧ Laid (elements ++ others) inner := by
  obtain ⟨first, more, rfl, other⟩ := spelled.start
  have ink := spelled.inked first (by simp)
  exact laid.symbol? (by decide) (by simpa using ⟨ink, other⟩)

theorem Spelled.ne_nil {elements : List (List Char)} (spelled : Spelled m elements) :
    elements ≠ [] := by
  obtain ⟨first, more, rfl, -⟩ := spelled.start
  exact List.cons_ne_nil first more

theorem Spelled.opened_inked {elements : List (List Char)} (spelled : Spelled m elements)
    (opened : Bool) : ∀ element ∈ optionally opened "'".toList ++ elements, Inked element :=
  List.forall_mem_append.mpr ⟨optionally_inked opened (by decide), spelled.inked⟩

theorem Spelled.stands_iff {elements : List (List Char)} {opened closed : Bool}
    (spelled : Spelled m elements) :
    Stands (optionally opened "'".toList ++ elements ++ optionally closed "'".toList) text ↔
      Laid (optionally opened "'".toList ++ (elements ++ optionally closed "'".toList))
        (Text.trimList text) := by
  rw [← List.append_assoc]
  refine stands_iff_laid (by simp [spelled.ne_nil]) ?_
  exact List.forall_mem_append.mpr
    ⟨spelled.opened_inked opened, optionally_inked closed (by decide)⟩

theorem Spelled.front_iff {elements : List (List Char)} {opened : Bool}
    (spelled : Spelled m elements) :
    (∃ rest, Stands (optionally opened "'".toList ++ elements ++ [rest]) text) ↔
      ∃ rest, Laid (optionally opened "'".toList ++ (elements ++ [rest])) (Text.trimList text) := by
  rw [stands_rest_iff (by simp [spelled.ne_nil]) (spelled.opened_inked opened)]
  simp only [List.append_assoc]

/-- A cell begins with a marker if and only if one of the alternatives fits behind the quote. -/
theorem begins_iff {inner : List Char}
    (opened : (symbol? "'").run (Text.trimList text) = some ((), inner)) :
    Begins text ↔ ∃ found tail, choice.run (inner.dropWhile isBlank) = some (found, tail) := by
  constructor
  · rintro ⟨m, elements, quoted, rest, spelled, stands⟩
    obtain ⟨rest, laid⟩ := spelled.front_iff.mp ⟨rest, stands⟩
    obtain ⟨start, again, laid⟩ := spelled.opening laid
    obtain ⟨-, rfl⟩ := Prod.mk.inj (Option.some.inj (opened.symm.trans again))
    obtain ⟨found, tail, run, -⟩ := choice_run spelled laid
    exact ⟨found, tail, run⟩
  · rintro ⟨found, tail, run⟩
    obtain ⟨elements, spelled, whole⟩ := sound_choice run
    obtain ⟨quoted, opening⟩ := optionally_of_symbol? opened
    have rest : Laid [tail] (tail ++ []) := laid_nil.here
    rw [List.append_nil] at rest
    have laid := opening _ (whole _ rest).of_dropWhile
    obtain ⟨rest, stands⟩ := spelled.front_iff.mpr ⟨tail, laid⟩
    exact ⟨found, elements, quoted, rest, spelled, stands⟩

theorem trimList_of_white (white : White text) : Text.trimList text = [] := by
  have dropped : (text ++ []).dropWhile Text.isWhiteSpace = [] := List.dropWhile_append_of_pos white
  rw [List.append_nil] at dropped
  rw [Text.trimList, dropped]
  rfl

theorem white_of_trimList (blank : Blanks (Text.trimList text)) : White text := by
  obtain ⟨before, after, left, right, whole⟩ := exists_trimList text
  rw [whole]
  intro c inside
  simp only [List.mem_append] at inside
  rcases inside with (first | middle) | last
  · exact left c first
  · exact blank.white c middle
  · exact right c last

/-- In what is read no alternative is left out, and in what is not marked nothing but quotes. -/
theorem writtenAs_of_run {rest : List Char}
    (run : markerCell.run (Text.trimList cell.toList) = some (m, rest)) : m.WrittenAs cell := by
  obtain ⟨inner, found, left, after, opened, read, closed, laid, rfl, rfl⟩ := run_markerCell.mp run
  obtain ⟨quoted, opening⟩ := optionally_of_symbol? opened
  obtain ⟨unquoted, closing⟩ := optionally_of_symbol? closed
  have closing := closing [] laid
  rw [List.append_nil] at closing
  rcases run_option.mp read with ⟨m, rfl, taken⟩ | ⟨rfl, -, rfl⟩
  · rw [run_marker, Option.or_eq_some_iff] at taken
    rcases taken with own | ⟨refused, own⟩
    · obtain ⟨elements, spelled, whole⟩ := sound_choice own
      have whole := opening _ (whole _ closing).of_dropWhile
      exact .spelled spelled quoted unquoted (spelled.stands_iff.mpr whole)
    · obtain ⟨speaks, rfl, rfl⟩ := run_stringMarker.mp own
      rw [speaks_dropWhile, speaks_symbol? opened, speaks_trimList] at speaks
      refine .string speaks fun begins => ?_
      obtain ⟨found, tail, fits⟩ := (begins_iff opened).mp begins
      rw [refused] at fits
      cases fits
  · have whole := opening _ closing.of_dropWhile
    cases quoted with
    | true => exact .quotes unquoted (stands_of_laid whole)
    | false =>
      cases unquoted with
      | true => exact .quotes false (stands_of_laid whole)
      | false => exact .empty (white_of_trimList whole)

/-- Quotes are no marker, and what stands behind the first of them neither. -/
theorem marker_of_quotes {closed : Bool} (laid : Laid (optionally closed "'".toList) text) :
    marker.run (text.dropWhile isBlank) = none ∧
      ∃ tail, (symbol? "'").run (text.dropWhile isBlank) = some ((), tail) ∧ Laid [] tail := by
  cases closed with
  | false =>
    rw [Laid.dropWhile_nil laid]
    exact ⟨rfl, [], rfl, laid_nil⟩
  | true =>
    obtain ⟨tail, split, laid⟩ := Laid.dropWhile laid (by decide)
    rw [split]
    refine ⟨?_, tail, run_symbol?.mpr (.inl rfl), laid⟩
    have silent : stringMarker.run ("'".toList ++ tail) = none := by
      refine Option.eq_none_iff_forall_ne_some.mpr ?_
      rintro ⟨m, rest⟩ run
      obtain ⟨speaks, -⟩ := run_stringMarker.mp run
      rw [infix_append_iff (by decide) quote_apart, ← List.append_nil tail,
        infix_append_iff (by decide) fun c inside => not_mem_string (Blanks.white laid c inside)]
        at speaks
      cases List.eq_nil_of_infix_nil speaks
    rw [run_marker, silent]
    rfl

theorem markerCell_run (written : m.WrittenAs cell) :
    markerCell.run (Text.trimList cell.toList) = some (m, []) := by
  rw [run_markerCell]
  cases written with
  | spelled spelled quoted unquoted stands =>
    obtain ⟨inner, opened, laid⟩ := spelled.opening (spelled.stands_iff.mp stands)
    obtain ⟨found, left, own, whole⟩ := choice_run spelled laid
    obtain ⟨rfl, laid⟩ := whole (by cases unquoted <;> simp [Closes, optionally])
    rw [← List.append_nil (optionally unquoted _)] at laid
    obtain ⟨after, closed, laid⟩ := laid.symbol? (by decide) (by simp)
    have taken : marker.run (inner.dropWhile isBlank) = some (found, left) := by
      rw [run_marker, own, Option.some_or]
    exact ⟨inner, some found, left, after, opened, run_option.mpr (.inl ⟨found, rfl, taken⟩), closed,
      laid, rfl, rfl⟩
  | string speaks other =>
    obtain ⟨inner, opened⟩ := symbol?_total "'" (Text.trimList cell.toList)
    rw [← speaks_trimList, ← speaks_symbol? opened, ← speaks_dropWhile] at speaks
    have refused : choice.run (inner.dropWhile isBlank) = none := by
      refine Option.eq_none_iff_forall_ne_some.mpr ?_
      exact fun answer fits => other ((begins_iff opened).mpr ⟨answer.1, answer.2, fits⟩)
    have taken : marker.run (inner.dropWhile isBlank) = some (.string, []) := by
      rw [run_marker, refused, Option.none_or]
      exact run_stringMarker.mpr ⟨speaks, rfl, rfl⟩
    exact ⟨inner, some .string, [], [], opened, run_option.mpr (.inl ⟨_, rfl, taken⟩), rfl,
      laid_nil, rfl, rfl⟩
  | empty white =>
    rw [trimList_of_white white]
    exact ⟨[], none, [], [], rfl, rfl, rfl, laid_nil, rfl, rfl⟩
  | quotes closed stands =>
    have laid := (stands_iff_laid (by simp) (List.forall_mem_cons.mpr
      ⟨by decide, optionally_inked closed (by decide)⟩)).mp stands
    obtain ⟨inner, split, laid⟩ := laid.dropWhile (by decide)
    obtain ⟨unmarked, after, last, laid⟩ := marker_of_quotes laid
    exact ⟨inner, none, _, after, run_symbol?.mpr (.inl split),
      run_option.mpr (.inr ⟨rfl, unmarked, rfl⟩), last, laid, rfl, rfl⟩

theorem scanWhole_markerCell : scanWhole markerCell cell = .ok m ↔ m.WrittenAs cell := by
  rw [scanWhole_eq_ok]
  constructor
  · rintro ⟨rest, run⟩
    exact writtenAs_of_run run
  · intro written
    exact ⟨[], markerCell_run written⟩

def MarkerOf.firstLarge (m : MarkerOf Numeral) : Option Numeral :=
  m.numerals.find? fun n => Size.bound ≤ n.toNat

theorem value_eq (m : MarkerOf Numeral) :
    m.value = m.firstLarge.elim (.ok (m.map Numeral.toNat)) fun n =>
      .error (.notAnInteger (String.ofList n)) := by
  cases m with
  | fixed n =>
    rcases Nat.lt_or_ge n.toNat Size.bound with small | large
    · have first : (MarkerOf.fixed n).firstLarge = none := by
        simp [MarkerOf.firstLarge, MarkerOf.numerals, small]
      rw [MarkerOf.value, Numeral.value_of_lt small, first]
      rfl
    · have first : (MarkerOf.fixed n).firstLarge = some n := by
        simp [MarkerOf.firstLarge, MarkerOf.numerals, large]
      rw [MarkerOf.value, Numeral.value_of_le large, first]
      rfl
  | ldpc codeBits messageBits =>
    rcases Nat.lt_or_ge codeBits.toNat Size.bound with code | large
    · rcases Nat.lt_or_ge messageBits.toNat Size.bound with message | large
      · have first : (MarkerOf.ldpc codeBits messageBits).firstLarge = none := by
          simp [MarkerOf.firstLarge, MarkerOf.numerals, code, message]
        rw [MarkerOf.value, Numeral.value_of_lt code, Numeral.value_of_lt message, first]
        rfl
      · have first : (MarkerOf.ldpc codeBits messageBits).firstLarge = some messageBits := by
          simp [MarkerOf.firstLarge, MarkerOf.numerals, code, large]
        rw [MarkerOf.value, Numeral.value_of_lt code, Numeral.value_of_le large, first]
        rfl
    · have first : (MarkerOf.ldpc codeBits messageBits).firstLarge = some codeBits := by
        simp [MarkerOf.firstLarge, MarkerOf.numerals, large]
      rw [MarkerOf.value, Numeral.value_of_le large, first]
      rfl
  | none => rfl
  | payload => rfl
  | string => rfl
  | enum key => rfl
  | struct key => rfl
  | template anchor => rfl

theorem firstLarge_eq_none :
    m.firstLarge = none ↔ ∀ n ∈ m.numerals, n.toNat < Size.bound := by
  simp [MarkerOf.firstLarge]

theorem readMarker_eq (written : m.WrittenAs cell) :
    readMarker cell = m.firstLarge.elim (.ok (m.map Numeral.toNat)) fun n =>
      .error (.notAnInteger (String.ofList n)) := by
  rw [readMarker, scanWhole_markerCell.mpr written]
  exact value_eq m

theorem readMarker_eq_ok {marker : Marker} :
    readMarker cell = .ok marker ↔ ∃ spelled : MarkerOf Numeral, spelled.WrittenAs cell ∧
      (∀ n ∈ spelled.numerals, n.toNat < Size.bound) ∧ marker = spelled.map Numeral.toNat := by
  constructor
  · intro ok
    obtain ⟨spelled, scanned, -⟩ := bind_eq_ok.mp ok
    have written := scanWhole_markerCell.mp scanned
    rw [readMarker_eq written] at ok
    cases first : spelled.firstLarge with
    | none =>
      rw [first] at ok
      exact ⟨spelled, written, firstLarge_eq_none.mp first, (Except.ok.inj ok).symm⟩
    | some n =>
      rw [first] at ok
      cases ok
  · rintro ⟨spelled, written, fits, rfl⟩
    rw [readMarker_eq written, firstLarge_eq_none.mpr fits]
    rfl

theorem Spelled.writtenAs_flatten {elements : List (List Char)} (spelled : Spelled m elements) :
    m.WrittenAs (String.ofList elements.flatten) := by
  refine .spelled spelled false false ?_
  rw [String.toList_ofList]
  simpa [optionally] using stands_flatten spelled.ne_nil

theorem Marker.Proper.writable {marker : Marker} (proper : marker.Proper) :
    ∃ cell, readMarker cell = .ok marker := by
  have read {spelled : MarkerOf Numeral} {elements : List (List Char)}
      (own : Spelled spelled elements) (fits : ∀ n ∈ spelled.numerals, n.toNat < Size.bound)
      (same : marker = spelled.map Numeral.toNat) : ∃ cell, readMarker cell = .ok marker :=
    ⟨_, readMarker_eq_ok.mpr ⟨spelled, own.writtenAs_flatten, fits, same⟩⟩
  cases marker with
  | none => exact ⟨"", rfl⟩
  | string => exact ⟨"string", rfl⟩
  | payload => exact ⟨"payload", rfl⟩
  | fixed n =>
    refine read (.fixed (.decimal (isDecimal_toDigits n)) false false) ?_ ?_
    · simpa [MarkerOf.numerals, toNat_toDigits, Proper] using proper
    · simp [MarkerOf.map, toNat_toDigits]
  | ldpc codeBits messageBits =>
    refine read (.ldpc (isDecimal_toDigits codeBits) (isDecimal_toDigits messageBits)) ?_ ?_
    · simpa [MarkerOf.numerals, toNat_toDigits, Proper] using proper
    · simp [MarkerOf.map, toNat_toDigits]
  | enum key => exact read (.enum proper true true) (by simp [MarkerOf.numerals]) rfl
  | struct key => exact read (.struct proper true true) (by simp [MarkerOf.numerals]) rfl
  | template anchor => exact read (.template proper) (by simp [MarkerOf.numerals]) rfl

theorem Marker.Proper.of_writtenAs (written : m.WrittenAs cell)
    (fits : ∀ n ∈ m.numerals, n.toNat < Size.bound) :
    Marker.Proper (m.map Numeral.toNat) := by
  cases written with
  | spelled spelled =>
    cases spelled with
    | fixed => exact fits _ (.head _)
    | payload => trivial
    | ldpc => exact ⟨fits _ (.head _), fits _ (.tail _ (.head _))⟩
    | enum named => exact named
    | struct named => exact named
    | link _ named => exact named
    | template linked => exact linked
  | string => trivial
  | empty => trivial
  | quotes => trivial

/-- A text is read as a marker if and only if the marker is written in it and its numbers have 64
bits. The first number that is larger is refused, and a text in which no marker is written is
malformed. No text is written for two markers, and every proper marker is written in some text. -/
theorem readMarker_exact :
    (∀ cell : String,
      (∀ marker, readMarker cell = .ok marker ↔ ∃ spelled : MarkerOf Numeral,
        spelled.WrittenAs cell ∧ (∀ n ∈ spelled.numerals, n.toNat < Size.bound) ∧
        marker = spelled.map Numeral.toNat) ∧
      (∀ spelled : MarkerOf Numeral, spelled.WrittenAs cell →
        ∀ n, spelled.firstLarge = some n →
          readMarker cell = .error (.notAnInteger (String.ofList n))) ∧
      ((∀ spelled : MarkerOf Numeral, ¬ spelled.WrittenAs cell) →
        readMarker cell = .error (.malformed cell)) ∧
      ∀ one other : MarkerOf Numeral, one.WrittenAs cell → other.WrittenAs cell → one = other) ∧
    ∀ marker : Marker, (∃ cell, readMarker cell = .ok marker) ↔ marker.Proper := by
  refine ⟨fun cell => ⟨fun marker => readMarker_eq_ok, ?_, ?_, ?_⟩, fun marker => ⟨?_, ?_⟩⟩
  · intro spelled written n first
    rw [readMarker_eq written, first]
    rfl
  · intro unwritten
    have unread : scanWhole markerCell cell = .error (.malformed cell) :=
      scanWhole_eq_error fun m scanned => unwritten m (scanWhole_markerCell.mp scanned)
    rw [readMarker, unread]
    rfl
  · intro one other first second
    have scanned := scanWhole_markerCell.mpr first
    rw [scanWhole_markerCell.mpr second] at scanned
    exact (Except.ok.inj scanned).symm
  · rintro ⟨cell, ok⟩
    obtain ⟨spelled, written, fits, rfl⟩ := readMarker_eq_ok.mp ok
    exact .of_writtenAs written fits
  · exact Marker.Proper.writable

end PacketSpec.Cell
