import PacketSpec.Cell.Read

/-! Texts that are made of elements with blanks between them, and what the scanners take from the
front of such a text. A whole cell has white space around its elements, of more kinds than the
blanks between them. -/
namespace PacketSpec.Cell

open Scan

def Blanks (text : List Char) : Prop := ∀ c ∈ text, isBlank c = true

def White (text : List Char) : Prop := ∀ c ∈ text, Text.isWhiteSpace c = true

def Inked (text : List Char) : Prop := text ≠ [] ∧ ∀ c ∈ text, Text.isWhiteSpace c = false

instance (text : List Char) : Decidable (Inked text) :=
  decidable_of_iff ((!text.isEmpty && text.all (!Text.isWhiteSpace ·)) = true) (by simp [Inked])

inductive Spaced : List (List Char) → List Char → Prop
  | last (element : List Char) : Spaced [element] element
  | next {element gap text : List Char} {others : List (List Char)} (blank : Blanks gap)
      (spaced : Spaced others text) : Spaced (element :: others) (element ++ gap ++ text)

/-- The elements with blanks between them are all that the text has but white space around it. -/
def Stands (elements : List (List Char)) (text : List Char) : Prop :=
  ∃ before core after, White before ∧ White after ∧ text = before ++ core ++ after ∧
    Spaced elements core

/-- The elements with blanks before each and after the last of them. This is what the scanners
skip, so that it can be followed from one element to the next. -/
def Laid : List (List Char) → List Char → Prop
  | [], text => Blanks text
  | element :: others, text =>
    ∃ gap tail, Blanks gap ∧ text = gap ++ (element ++ tail) ∧ Laid others tail

def optionally (present : Bool) (element : List Char) : List (List Char) :=
  if present then [element] else []

def Stops (holds : Char → Bool) (text : List Char) : Prop := ∀ c ∈ text.head?, holds c = false

variable {element text tail : List Char} {elements others : List (List Char)}
  {holds : Char → Bool}

theorem isWhiteSpace_of_isBlank {c : Char} (blank : isBlank c = true) :
    Text.isWhiteSpace c = true := by
  simp only [isBlank, Bool.or_eq_true, beq_iff_eq] at blank
  rcases blank with ((rfl | rfl) | rfl) | rfl <;> decide

theorem isBlank_eq_false {c : Char} (ink : Text.isWhiteSpace c = false) : isBlank c = false := by
  cases blank : isBlank c with
  | false => rfl
  | true => rwa [isWhiteSpace_of_isBlank blank] at ink

theorem Blanks.white {text : List Char} (blank : Blanks text) : White text :=
  fun c inside => isWhiteSpace_of_isBlank (blank c inside)

theorem blanks_takeWhile (text : List Char) : Blanks (text.takeWhile isBlank) := by
  intro c inside
  simpa using List.all_eq_true.mp List.all_takeWhile c inside

theorem Blanks.append {first second : List Char} (one : Blanks first) (two : Blanks second) :
    Blanks (first ++ second) := by
  intro c inside
  rcases List.mem_append.mp inside with first | second
  · exact one c first
  · exact two c second

/-- Laid elements stand, spaced, between blanks. -/
theorem laid_iff_spaced :
    Laid (element :: others) text ↔ ∃ before core after, Blanks before ∧ Blanks after ∧
      text = before ++ core ++ after ∧ Spaced (element :: others) core := by
  -- The blanks before the second element are a gap on one side and `before` on the other.
  induction others generalizing element text with
  | nil =>
    constructor
    · rintro ⟨gap, tail, blank, rfl, rest⟩
      exact ⟨gap, element, tail, blank, rest, by simp, .last element⟩
    · rintro ⟨before, core, after, blank, rest, rfl, spaced⟩
      cases spaced with
      | last => exact ⟨before, after, blank, by simp, rest⟩
      | next _ impossible => cases impossible
  | cons second others ih =>
    constructor
    · rintro ⟨gap, tail, blank, rfl, laid⟩
      obtain ⟨inner, core, after, between, rest, rfl, spaced⟩ := ih.mp laid
      exact ⟨gap, element ++ inner ++ core, after, blank, rest, by simp, .next between spaced⟩
    · rintro ⟨before, core, after, blank, rest, rfl, spaced⟩
      cases spaced with
      | @next _ gap core _ between spaced =>
        refine ⟨before, gap ++ core ++ after, blank, by simp, ?_⟩
        exact ih.mpr ⟨gap, core, after, between, rest, rfl, spaced⟩

theorem dropWhile_append_of_blanks {gap : List Char} (blank : Blanks gap) (text : List Char) :
    (gap ++ text).dropWhile isBlank = text.dropWhile isBlank := by
  rw [List.dropWhile_append_of_pos blank]

theorem Laid.of_dropWhile (laid : Laid elements (text.dropWhile isBlank)) : Laid elements text := by
  have whole := List.takeWhile_append_dropWhile (p := isBlank) (l := text)
  rw [← whole]
  cases elements with
  | nil => exact (blanks_takeWhile text).append laid
  | cons element others =>
    obtain ⟨gap, tail, blank, split, rest⟩ := laid
    exact ⟨_, tail, (blanks_takeWhile text).append blank, by rw [split, List.append_assoc], rest⟩

theorem laid_nil : Laid [] [] := by simp [Laid, Blanks]

theorem Laid.here (rest : Laid others tail) : Laid (element :: others) (element ++ tail) :=
  ⟨[], tail, by simp [Blanks], rfl, rest⟩

theorem Laid.cons (split : text.dropWhile isBlank = element ++ tail) (rest : Laid others tail) :
    Laid (element :: others) text :=
  .of_dropWhile (split ▸ rest.here)

/-- The first element is what the skipped blanks leave. -/
theorem Laid.dropWhile (laid : Laid (element :: others) text) (ink : Inked element) :
    ∃ tail, text.dropWhile isBlank = element ++ tail ∧ Laid others tail := by
  obtain ⟨gap, tail, blank, rfl, rest⟩ := laid
  refine ⟨tail, ?_, rest⟩
  rw [dropWhile_append_of_blanks blank]
  cases element with
  | nil => exact absurd rfl ink.1
  | cons c word => exact List.dropWhile_cons_of_neg (by simp [isBlank_eq_false (ink.2 c (by simp))])

theorem Laid.dropWhile_nil (laid : Laid [] text) : text.dropWhile isBlank = [] := by
  have nothing := dropWhile_append_of_blanks laid []
  rwa [List.append_nil] at nothing

/-- A run of characters ends where the next element begins, or before it. -/
theorem Laid.stops (laid : Laid (element :: others) text)
    (blank : ∀ b, isBlank b = true → holds b = false)
    (first : ∃ c ∈ element.head?, holds c = false) : Stops holds text := by
  obtain ⟨gap, tail, between, rfl, -⟩ := laid
  obtain ⟨c, starts, other⟩ := first
  cases gap with
  | nil => simpa [Stops, Option.mem_def.mp starts] using other
  | cons b gap => simpa [Stops] using blank b (between b (by simp))

namespace Scan

variable {α β : Type} {scan : Scan α} {rest : List Char}

theorem run_bind_eq_some {next : α → Scan β} {b : β} :
    (scan >>= next).run text = some (b, rest) ↔
      ∃ a middle, scan.run text = some (a, middle) ∧ (next a).run middle = some (b, rest) := by
  rw [StateT.run_bind]
  exact Option.bind_eq_some_iff.trans Prod.exists

theorem run_pure_eq_some {a b : α} :
    (pure a : Scan α).run text = some (b, rest) ↔ a = b ∧ text = rest := by
  rw [StateT.run_pure]
  simp [pure]

theorem run_orElse {other : Scan α} :
    (scan <|> other).run text = (scan.run text).or (other.run text) := by
  change Option.orElse (scan.run text) (fun _ => other.run text) = _
  rw [Option.orElse_eq_or]

theorem run_blanks : blanks.run text = some ((), text.dropWhile isBlank) := rfl

theorem run_exactly {symbol : String} {u : Unit} :
    (exactly symbol).run text = some (u, rest) ↔ text = symbol.toList ++ rest := by
  simp only [StateT.run, exactly, ← String.length_toList]
  constructor
  · intro run
    split at run
    · next starts =>
      cases run
      exact (List.prefix_iff_eq_append.mp (List.isPrefixOf_iff_prefix.mp starts)).symm
    · cases run
  · rintro rfl
    rw [if_pos (List.isPrefixOf_iff_prefix.mpr (List.prefix_append ..)), List.drop_left]

theorem run_many1 {taken : List Char} :
    (many1 holds).run text = some (taken, rest) ↔
      text = taken ++ rest ∧ taken ≠ [] ∧ (∀ c ∈ taken, holds c = true) ∧ Stops holds rest := by
  simp only [StateT.run, many1]
  constructor
  · intro run
    split at run
    · cases run
    · next nonempty =>
      cases run
      refine ⟨List.takeWhile_append_dropWhile.symm, by simpa using nonempty, ?_, ?_⟩
      · exact List.all_eq_true.mp List.all_takeWhile
      · intro c first
        have not := List.head?_dropWhile_not holds text
        rw [first] at not
        simpa using not
  · rintro ⟨rfl, nonempty, all, stops⟩
    have front : (taken ++ rest).takeWhile holds = taken := by
      rw [List.takeWhile_append_of_pos all]
      cases rest with
      | nil => simp
      | cons c rest => simp [stops c rfl]
    have back : (taken ++ rest).dropWhile holds = rest := by
      rw [List.dropWhile_append_of_pos all]
      cases rest with
      | nil => simp
      | cons c rest => simp [stops c rfl]
    rw [front, back, if_neg (by simpa using nonempty)]

theorem run_many1_eq_none (stops : Stops holds text) : (many1 holds).run text = none := by
  cases text with
  | nil => rfl
  | cons c text => simp [many1, StateT.run, stops c rfl]

theorem run_option {found : Option α} :
    (option scan).run text = some (found, rest) ↔
      (∃ a, found = some a ∧ scan.run text = some (a, rest)) ∨
      (found = none ∧ scan.run text = none ∧ text = rest) := by
  rw [option, run_orElse, StateT.run_map, StateT.run_pure]
  cases scan.run text with
  | none => simp [pure, eq_comm]
  | some answer =>
    obtain ⟨a, middle⟩ := answer
    simp only [Option.map_eq_map, Option.map_some, Option.some_or, Option.some_inj,
      Prod.mk.injEq, reduceCtorEq, false_and, and_false, or_false]
    constructor
    · rintro ⟨rfl, rfl⟩
      exact ⟨a, rfl, rfl, rfl⟩
    · rintro ⟨b, rfl, rfl, rfl⟩
      exact ⟨rfl, rfl⟩

theorem run_map_eq_some {f : α → β} {b : β} :
    (f <$> scan).run text = some (b, rest) ↔ ∃ a, scan.run text = some (a, rest) ∧ f a = b := by
  rw [StateT.run_map]
  constructor
  · intro run
    obtain ⟨⟨a, middle⟩, first, same⟩ := Option.map_eq_some_iff.mp run
    cases same
    exact ⟨a, first, rfl⟩
  · rintro ⟨a, first, rfl⟩
    exact Option.map_eq_some_iff.mpr ⟨(a, rest), first, rfl⟩

theorem run_discard {u : Unit} :
    (discard scan).run text = some (u, rest) ↔ ∃ a, scan.run text = some (a, rest) := by
  rw [discard, map_const, Function.comp_apply, run_map_eq_some]
  exact exists_congr fun a => and_iff_left rfl

theorem run_exactly_eq_none {mark : String} :
    (exactly mark).run text = none ↔ ¬ mark.toList <+: text := by
  constructor
  · rintro refused ⟨rest, split⟩
    have taken : (exactly mark).run text = some ((), rest) := run_exactly.mpr split.symm
    rw [taken] at refused
    cases refused
  · intro other
    refine Option.eq_none_iff_forall_ne_some.mpr fun answer run => other ?_
    exact ⟨answer.2, (run_exactly.mp run).symm⟩

theorem run_symbol {mark : String} {u : Unit} :
    (symbol mark).run text = some (u, rest) ↔ text.dropWhile isBlank = mark.toList ++ rest := by
  rw [symbol, StateT.run_bind, run_blanks]
  exact run_exactly

theorem run_symbol? {mark : String} {u : Unit} :
    (symbol? mark).run text = some (u, rest) ↔
      text.dropWhile isBlank = mark.toList ++ rest ∨
      (¬ mark.toList <+: text.dropWhile isBlank ∧ text.dropWhile isBlank = rest) := by
  rw [symbol?, StateT.run_bind, run_blanks]
  refine run_discard.trans ⟨?_, ?_⟩
  · rintro ⟨found, run⟩
    rcases run_option.mp run with ⟨_, -, taken⟩ | ⟨-, absent, same⟩
    · exact .inl (run_exactly.mp taken)
    · exact .inr ⟨run_exactly_eq_none.mp absent, same⟩
  · rintro (split | ⟨absent, same⟩)
    · exact ⟨some (), run_option.mpr (.inl ⟨(), rfl, run_exactly.mpr split⟩)⟩
    · exact ⟨none, run_option.mpr (.inr ⟨rfl, run_exactly_eq_none.mpr absent, same⟩)⟩

theorem run_finish {u : Unit} : finish.run text = some (u, rest) ↔ Laid [] text ∧ rest = [] := by
  rw [finish, StateT.run_bind, run_blanks]
  constructor
  · intro run
    replace run : (if (text.dropWhile isBlank).isEmpty then some ((), []) else none) =
      some (u, rest) := run
    split at run
    · next empty =>
      cases run
      rw [List.isEmpty_iff] at empty
      exact ⟨.of_dropWhile (empty ▸ laid_nil), rfl⟩
    · cases run
  · rintro ⟨laid, rfl⟩
    change (if (text.dropWhile isBlank).isEmpty then some ((), []) else none) = _
    rw [laid.dropWhile_nil]
    rfl

end Scan

theorem Laid.of_symbol {mark : String} {u : Unit} {rest : List Char}
    (run : (symbol mark).run text = some (u, rest)) (laid : Laid others rest) :
    Laid (mark.toList :: others) text :=
  .cons (run_symbol.mp run) laid

/-- The blanks before an option are those before what follows, so that it does not matter where they
are skipped. -/
theorem run_symbol?_eq {mark : String} :
    (symbol? mark).run text = (discard (option (exactly mark))).run (text.dropWhile isBlank) := by
  rw [symbol?, StateT.run_bind, run_blanks]
  rfl

/-- Whether an option has been taken does not depend on what follows it. -/
theorem optionally_of_option {mark : String} {u : Unit} {rest : List Char}
    (run : (discard (option (exactly mark))).run text = some (u, rest)) :
    ∃ present, ∀ others, Laid others rest → Laid (optionally present mark.toList ++ others) text := by
  obtain ⟨found, run⟩ := run_discard.mp run
  rcases run_option.mp run with ⟨_, -, taken⟩ | ⟨-, -, rfl⟩
  · exact ⟨true, fun others laid => run_exactly.mp taken ▸ laid.here⟩
  · exact ⟨false, fun others laid => laid⟩

theorem optionally_of_symbol? {mark : String} {u : Unit} {rest : List Char}
    (run : (symbol? mark).run text = some (u, rest)) :
    ∃ present, ∀ others, Laid others rest → Laid (optionally present mark.toList ++ others) text := by
  obtain ⟨present, laid⟩ := optionally_of_option (run_symbol?_eq.symm.trans run)
  exact ⟨present, fun others rest => (laid others rest).of_dropWhile⟩

theorem Laid.of_symbol? {mark : String} {u : Unit} {rest : List Char}
    (run : (symbol? mark).run text = some (u, rest)) (laid : Laid others rest) :
    ∃ present, Laid (optionally present mark.toList ++ others) text := by
  obtain ⟨present, whole⟩ := optionally_of_symbol? run
  exact ⟨present, whole others laid⟩

theorem Laid.symbol {mark : String} (laid : Laid (mark.toList :: others) text)
    (ink : Inked mark.toList) :
    ∃ tail, (symbol mark).run text = some ((), tail) ∧ Laid others tail := by
  obtain ⟨tail, split, rest⟩ := laid.dropWhile ink
  exact ⟨tail, run_symbol.mpr split, rest⟩

/-- An option is taken if it is there. Else it is left, since what follows starts in another way. -/
theorem Laid.symbol? {mark : String} {present : Bool}
    (laid : Laid (optionally present mark.toList ++ others) text) (ink : Inked mark.toList)
    (other : ∀ element ∈ others.head?, Inked element ∧ element.head? ≠ mark.toList.head?) :
    ∃ tail, (symbol? mark).run text = some ((), tail) ∧ Laid others tail := by
  cases present with
  | true =>
    obtain ⟨tail, split, rest⟩ := Laid.dropWhile laid ink
    exact ⟨tail, run_symbol?.mpr (.inl split), rest⟩
  | false =>
    rw [optionally, if_neg (by decide), List.nil_append] at laid
    have left : ¬ mark.toList <+: text.dropWhile isBlank ∧
        Laid others (text.dropWhile isBlank) := by
      cases others with
      | nil => simpa [laid.dropWhile_nil, Laid, Blanks] using ink.1
      | cons element others =>
        obtain ⟨dark, different⟩ := other _ rfl
        obtain ⟨tail, split, laid⟩ := laid.dropWhile dark
        rw [split]
        refine ⟨?_, laid.here⟩
        -- both are not empty, so the first characters decide
        rintro ⟨rest, same⟩
        have heads := congrArg List.head? same.symm
        rw [List.head?_append, List.head?_append, List.head?_eq_some_head dark.1,
          List.head?_eq_some_head ink.1, Option.some_or, Option.some_or] at heads
        rw [List.head?_eq_some_head dark.1, List.head?_eq_some_head ink.1] at different
        exact different heads
    exact ⟨_, run_symbol?.mpr (.inr ⟨left.1, rfl⟩), left.2⟩

theorem forall_head_optionally {good : List Char → Prop} {present : Bool} {element : List Char}
    (own : good element) (next : ∀ other ∈ others.head?, good other) :
    ∀ other ∈ (optionally present element ++ others).head?, good other := by
  cases present with
  | true => simpa [optionally] using own
  | false => simpa [optionally] using next

theorem Laid.stops_of_head {holds : Char → Bool} (laid : Laid others text)
    (blank : ∀ b, isBlank b = true → holds b = false)
    (first : ∀ element ∈ others.head?, ∃ c ∈ element.head?, holds c = false) :
    Stops holds text := by
  cases others with
  | nil => exact fun c inside => blank c (laid c (List.mem_of_mem_head? inside))
  | cons element others => exact laid.stops blank (first element rfl)

theorem exists_trimList (text : List Char) : ∃ before after, White before ∧ White after ∧
    text = before ++ Text.trimList text ++ after := by
  have white (text : List Char) : White (text.takeWhile Text.isWhiteSpace) :=
    List.all_eq_true.mp List.all_takeWhile
  let back := (text.dropWhile Text.isWhiteSpace).reverse
  have whole : back.takeWhile Text.isWhiteSpace ++ back.dropWhile Text.isWhiteSpace = back :=
    List.takeWhile_append_dropWhile
  refine ⟨text.takeWhile Text.isWhiteSpace, (back.takeWhile Text.isWhiteSpace).reverse,
    white text, fun c inside => white back c (List.mem_reverse.mp inside), ?_⟩
  rw [Text.trimList, List.append_assoc, ← List.reverse_append, whole, List.reverse_reverse,
    List.takeWhile_append_dropWhile]

theorem dropWhile_eq_self_of_stops (stops : Stops holds text) : text.dropWhile holds = text := by
  cases text with
  | nil => rfl
  | cons c text => exact List.dropWhile_cons_of_neg (by simp [stops c rfl])

theorem Stops.append (stops : Stops holds text) (nonempty : text ≠ []) (more : List Char) :
    Stops holds (text ++ more) := by
  cases text with
  | nil => exact absurd rfl nonempty
  | cons c text => exact stops

theorem trimList_eq {before core after : List Char} (left : White before) (right : White after)
    (nonempty : core ≠ []) (first : Stops Text.isWhiteSpace core)
    (last : Stops Text.isWhiteSpace core.reverse) :
    Text.trimList (before ++ core ++ after) = core := by
  rw [Text.trimList, List.append_assoc, List.dropWhile_append_of_pos left,
    dropWhile_eq_self_of_stops (first.append nonempty after), List.reverse_append,
    List.dropWhile_append_of_pos fun c inside => right c (List.mem_reverse.mp inside),
    dropWhile_eq_self_of_stops last, List.reverse_reverse]

theorem Inked.stops (ink : Inked element) : Stops Text.isWhiteSpace element :=
  fun c first => ink.2 c (List.mem_of_mem_head? first)

theorem Inked.reverse (ink : Inked element) : Inked element.reverse :=
  ⟨by simpa using ink.1, fun c inside => ink.2 c (List.mem_reverse.mp inside)⟩

/-- Neither end of the elements is white. -/
theorem Spaced.ends {core : List Char} (spaced : Spaced elements core)
    (ink : ∀ element ∈ elements, Inked element) :
    core ≠ [] ∧ Stops Text.isWhiteSpace core ∧ Stops Text.isWhiteSpace core.reverse := by
  induction spaced with
  | last element =>
    have ink := ink element (by simp)
    exact ⟨ink.1, ink.stops, ink.reverse.stops⟩
  | @next element gap text others _ _ ih =>
    have first := ink element (by simp)
    obtain ⟨nonempty, -, last⟩ := ih fun other inside => ink other (by simp [inside])
    refine ⟨by simp [nonempty], ?_, ?_⟩
    · rw [List.append_assoc]
      exact first.stops.append first.1 _
    · rw [List.reverse_append]
      exact last.append (by simpa using nonempty) _

theorem stands_of_laid (laid : Laid (element :: others) (Text.trimList text)) :
    Stands (element :: others) text := by
  obtain ⟨inner, core, outer, first, last, trimmed, spaced⟩ := laid_iff_spaced.mp laid
  obtain ⟨before, after, left, right, whole⟩ := exists_trimList text
  refine ⟨before ++ inner, core, outer ++ after, ?_, ?_, ?_, spaced⟩
  · exact fun c inside => (List.mem_append.mp inside).elim (left c) (first.white c)
  · exact fun c inside => (List.mem_append.mp inside).elim (last.white c) (right c)
  · rw [whole, trimmed]
    simp only [List.append_assoc]

/-- A cell is trimmed before its elements are read. -/
theorem stands_iff_laid (nonempty : elements ≠ []) (ink : ∀ element ∈ elements, Inked element) :
    Stands elements text ↔ Laid elements (Text.trimList text) := by
  obtain ⟨element, others, rfl⟩ := List.exists_cons_of_ne_nil nonempty
  refine ⟨?_, stands_of_laid⟩
  rintro ⟨before, core, after, left, right, rfl, spaced⟩
  obtain ⟨inked, first, last⟩ := spaced.ends ink
  rw [trimList_eq left right inked first last]
  exact laid_iff_spaced.mpr ⟨[], core, [], by simp [Blanks], by simp [Blanks], by simp, spaced⟩

theorem spaced_concat_iff {core rest : List Char} (nonempty : elements ≠ []) :
    Spaced (elements ++ [rest]) core ↔
      ∃ front gap, Spaced elements front ∧ Blanks gap ∧ core = front ++ gap ++ rest := by
  induction elements generalizing core with
  | nil => exact absurd rfl nonempty
  | cons element others ih =>
    cases others with
    | nil =>
      constructor
      · intro spaced
        cases spaced with
        | @next _ gap _ _ blank last =>
          cases last with
          | last => exact ⟨element, gap, .last element, blank, rfl⟩
          | next _ impossible => cases impossible
      · rintro ⟨front, gap, spaced, blank, rfl⟩
        cases spaced with
        | last => exact .next blank (.last rest)
        | next _ impossible => cases impossible
    | cons second others =>
      constructor
      · intro spaced
        cases spaced with
        | @next _ gap _ _ blank spaced =>
          obtain ⟨front, last, inner, between, rfl⟩ := (ih (by simp)).mp spaced
          exact ⟨element ++ gap ++ front, last, .next blank inner, between, by simp⟩
      · rintro ⟨front, last, spaced, between, rfl⟩
        cases spaced with
        | @next _ gap tail _ blank inner =>
          have behind : Spaced (second :: others ++ [rest]) (tail ++ last ++ rest) :=
            (ih (by simp)).mpr ⟨tail, last, inner, between, rfl⟩
          simpa using Spaced.next blank behind

/-- White space is cut off before the front and behind the rest only. -/
theorem trimList_front {before front : List Char} (left : White before) (nonempty : front ≠ [])
    (first : Stops Text.isWhiteSpace front) (last : Stops Text.isWhiteSpace front.reverse)
    (more : List Char) :
    ∃ kept, Text.trimList (before ++ front ++ more) = front ++ kept := by
  refine ⟨(more.reverse.dropWhile Text.isWhiteSpace).reverse, ?_⟩
  rw [Text.trimList, List.append_assoc, List.dropWhile_append_of_pos left,
    dropWhile_eq_self_of_stops (first.append nonempty more), List.reverse_append,
    List.dropWhile_append]
  split
  · next blank =>
    rw [List.isEmpty_iff.mp blank, dropWhile_eq_self_of_stops last]
    simp
  · simp

/-- A text begins with elements if and only if it does so when trimmed. -/
theorem stands_rest_iff (nonempty : elements ≠ []) (ink : ∀ element ∈ elements, Inked element) :
    (∃ rest, Stands (elements ++ [rest]) text) ↔
      ∃ rest, Laid (elements ++ [rest]) (Text.trimList text) := by
  obtain ⟨element, others, rfl⟩ := List.exists_cons_of_ne_nil nonempty
  constructor
  · rintro ⟨rest, before, core, after, left, right, rfl, spaced⟩
    obtain ⟨front, gap, inner, blank, rfl⟩ := (spaced_concat_iff nonempty).mp spaced
    obtain ⟨filled, first, last⟩ := inner.ends ink
    obtain ⟨kept, trimmed⟩ := trimList_front left filled first last (gap ++ rest ++ after)
    refine ⟨kept, ?_⟩
    have whole : before ++ (front ++ gap ++ rest) ++ after =
        before ++ front ++ (gap ++ rest ++ after) := by simp
    rw [whole, trimmed]
    have gapless : Blanks [] := by simp [Blanks]
    refine laid_iff_spaced.mpr ⟨[], front ++ kept, [], gapless, gapless, by simp, ?_⟩
    exact (spaced_concat_iff nonempty).mpr ⟨front, [], inner, gapless, by simp⟩
  · rintro ⟨rest, laid⟩
    exact ⟨rest, stands_of_laid laid⟩

/-- Elements may stand without any blanks. -/
theorem stands_flatten (nonempty : elements ≠ []) : Stands elements elements.flatten := by
  refine ⟨[], elements.flatten, [], by simp [White], by simp [White], by simp, ?_⟩
  induction elements with
  | nil => exact absurd rfl nonempty
  | cons element others ih =>
    cases others with
    | nil => simpa using Spaced.last element
    | cons second others =>
      have blank : Blanks [] := by simp [Blanks]
      have spaced : Spaced (element :: second :: others) _ := .next blank (ih (by simp))
      simpa using spaced

section Whole

variable {α : Type} {scan : Scan α} {cell : String}

theorem scanWhole_eq_ok {a : α} :
    scanWhole scan cell = .ok a ↔
      ∃ rest, scan.run (Text.trimList cell.toList) = some (a, rest) := by
  rw [scanWhole]
  cases scan.run (Text.trimList cell.toList) <;> simp [Prod.ext_iff]

/-- A cell that is not read is malformed. -/
theorem scanWhole_eq_error (unread : ∀ a, scanWhole scan cell ≠ .ok a) :
    scanWhole scan cell = .error (.malformed cell) := by
  rw [scanWhole] at unread ⊢
  split
  · next a _ run =>
    rw [run] at unread
    exact absurd rfl (unread a)
  · rfl

end Whole

end PacketSpec.Cell
