import PacketSpec.Proofs.Cell.Numerals

/-! How markers are written, and what the alternatives of the grammar take for one. The alternatives
begin in different ways, so that the first one that fits is the only one. -/
namespace PacketSpec.Cell

open Scan Grammar

structure IsKey (key : String) : Prop where
  nonempty : key.toList ≠ []
  chars : ∀ c ∈ key.toList, c.isAlphanum = true ∨ c = '_' ∨ c = '-'

def IsAnchor (anchor : String) : Prop := ∃ key, IsKey key ∧ anchor.toList = '#' :: key.toList

/-- The elements of a marker. Its braces or value brackets may be left out, each by itself. -/
inductive Spelled : MarkerOf Numeral → List (List Char) → Prop
  | fixed {n : Numeral} (number : IsInteger n) (opened closed : Bool) :
      Spelled (.fixed n) (optionally opened "[=".toList ++ n :: optionally closed "=]".toList)
  | payload {word : List Char} (folded : word.map Char.toLower = "payload".toList) :
      Spelled .payload [word]
  | ldpc {codeBits messageBits : Numeral} (code : IsDecimal codeBits)
      (message : IsDecimal messageBits) :
      Spelled (.ldpc codeBits messageBits)
        ["LDPC".toList, "(".toList, codeBits, ",".toList, messageBits, ")".toList]
  | enum {key : String} (named : IsKey key) (opened closed : Bool) :
      Spelled (.enum key) ("enum".toList ::
        (optionally opened "\x7b".toList ++ key.toList :: optionally closed "\x7d".toList))
  | struct {key : String} (named : IsKey key) (opened closed : Bool) :
      Spelled (.struct key) ("struct".toList ::
        (optionally opened "\x7b".toList ++ key.toList :: optionally closed "\x7d".toList))
  | link {anchor key : String} (linked : IsAnchor anchor) (named : IsKey key)
      (opened closed : Bool) :
      Spelled (.struct key) ("struct".toList :: (optionally opened "\x7b".toList ++ "[[".toList ::
        anchor.toList :: "|".toList :: key.toList :: "]]".toList :: optionally closed "\x7d".toList))
  | template {anchor : String} (linked : IsAnchor anchor) :
      Spelled (.template anchor) ["[[".toList, anchor.toList, "]]".toList]

variable {text rest : List Char} {others : List (List Char)} {m : MarkerOf Numeral}

theorem isKeyChar_iff {c : Char} :
    isKeyChar c = true ↔ c.isAlphanum = true ∨ c = '_' ∨ c = '-' := by
  simp [isKeyChar, or_assoc]

theorem isWhiteSpace_of_isKeyChar {c : Char} (own : isKeyChar c = true) :
    Text.isWhiteSpace c = false := by
  have small : c.toNat < 128 := by
    rcases isKeyChar_iff.mp own with word | rfl | rfl
    · exact Text.ascii_of_alphanum word
    · decide
    · decide
  exact Text.ascii_forall (P := fun c => isKeyChar c = true → Text.isWhiteSpace c = false)
    (by decide) small own

theorem isKeyChar_of_isBlank (c : Char) (blank : isBlank c = true) : isKeyChar c = false := by
  refine Bool.eq_false_iff.mpr fun own => ?_
  have white := isWhiteSpace_of_isBlank blank
  rw [isWhiteSpace_of_isKeyChar own] at white
  cases white

theorem IsKey.inked {key : String} (named : IsKey key) : Inked key.toList :=
  ⟨named.nonempty, fun c inside =>
    isWhiteSpace_of_isKeyChar (isKeyChar_iff.mpr (named.chars c inside))⟩

theorem IsKey.head_ne {key : String} {c : Char} (named : IsKey key) (other : isKeyChar c = false) :
    key.toList.head? ≠ Option.some c := by
  intro first
  have own := isKeyChar_iff.mpr (named.chars c (List.mem_of_mem_head? first))
  rw [own] at other
  cases other

theorem IsAnchor.inked {anchor : String} (linked : IsAnchor anchor) : Inked anchor.toList := by
  obtain ⟨key, named, split⟩ := linked
  rw [split]
  exact ⟨by simp, List.forall_mem_cons.mpr ⟨by decide, named.inked.2⟩⟩

theorem run_key {name : String} :
    key.run text = some (name, rest) ↔
      text = name.toList ++ rest ∧ IsKey name ∧ Stops isKeyChar rest := by
  rw [key, run_map_eq_some]
  constructor
  · rintro ⟨chars, run, rfl⟩
    obtain ⟨rfl, nonempty, all, stops⟩ := run_many1.mp run
    exact ⟨by simp, ⟨by simpa using nonempty, by simpa [isKeyChar_iff] using all⟩, stops⟩
  · rintro ⟨rfl, named, stops⟩
    refine ⟨name.toList, run_many1.mpr ⟨rfl, named.nonempty, ?_, stops⟩, String.ofList_toList⟩
    exact fun c inside => isKeyChar_iff.mpr (named.chars c inside)

theorem run_anchor {name : String} :
    anchor.run text = some (name, rest) ↔
      text = name.toList ++ rest ∧ IsAnchor name ∧ Stops isKeyChar rest := by
  rw [anchor, run_bind_eq_some]
  constructor
  · rintro ⟨_, middle, marked, second⟩
    obtain ⟨chars, tail, taken, done⟩ := run_bind_eq_some.mp second
    obtain ⟨rfl, rfl⟩ := run_pure_eq_some.mp done
    obtain ⟨rfl, nonempty, all, stops⟩ := run_many1.mp taken
    obtain rfl := run_exactly.mp marked
    refine ⟨by simp, ⟨String.ofList chars, ⟨?_, ?_⟩, by simp⟩, stops⟩
    · simpa using nonempty
    · simpa [isKeyChar_iff] using all
  · rintro ⟨rfl, ⟨key, named, split⟩, stops⟩
    refine ⟨(), key.toList ++ rest, run_exactly.mpr (by rw [split]; rfl), ?_⟩
    have chars : ∀ c ∈ key.toList, isKeyChar c = true :=
      fun c inside => isKeyChar_iff.mpr (named.chars c inside)
    refine run_bind_eq_some.mpr
      ⟨key.toList, rest, run_many1.mpr ⟨rfl, named.nonempty, chars, stops⟩, ?_⟩
    rw [← split, String.ofList_toList]
    rfl

theorem run_inAnyCase {word : String} {u : Unit} :
    (inAnyCase word).run text = some (u, rest) ↔
      ∃ own, own.map Char.toLower = word.toList ∧ text = own ++ rest := by
  simp only [StateT.run, inAnyCase, ← String.length_toList]
  constructor
  · intro run
    split at run
    · next same =>
      cases run
      exact ⟨_, (beq_iff_eq.mp same).symm, (List.take_append_drop ..).symm⟩
    · cases run
  · rintro ⟨own, same, rfl⟩
    have count : word.toList.length = own.length := by rw [← same, List.length_map]
    rw [count, List.take_left, List.drop_left, same, beq_self_eq_true, if_pos rfl]

theorem toLower_eq_self {c : Char} (other : c.isAlphanum = false) : c.toLower = c := by
  refine dif_neg fun upper => ?_
  have ranges : c.isAlphanum =
      (decide (c.val ≥ 'A'.val ∧ c.val ≤ 'Z'.val) ||
        decide (c.val ≥ 'a'.val) && decide (c.val ≤ 'z'.val) || c.isDigit) := rfl
  rw [ranges, decide_eq_true upper, Bool.true_or, Bool.true_or] at other
  cases other

/-- A word is not white in any case. -/
theorem inked_of_folded {word : List Char} (folded : word.map Char.toLower = "payload".toList) :
    Inked word := by
  refine ⟨?_, fun c inside => ?_⟩
  · rintro rfl
    cases folded
  · have lower : c.toLower ∈ "payload".toList := folded ▸ List.mem_map_of_mem inside
    have letters : Inked "payload".toList := by decide
    rcases Bool.eq_false_or_eq_true c.isAlphanum with word | other
    · exact isWhiteSpace_of_isNameChar (isNameChar_iff.mpr (.inl word))
    · rw [← toLower_eq_self other]
      exact letters.2 _ lower

def Sound (scan : Scan (MarkerOf Numeral)) : Prop :=
  ∀ {text rest m}, scan.run text = some (m, rest) →
    ∃ elements, Spelled m elements ∧ ∀ others, Laid others rest → Laid (elements ++ others) text

theorem Sound.orElse {scan other : Scan (MarkerOf Numeral)} (first : Sound scan)
    (second : Sound other) : Sound (scan <|> other) := by
  intro text rest m run
  rw [run_orElse, Option.or_eq_some_iff] at run
  rcases run with own | ⟨-, own⟩
  · exact first own
  · exact second own

theorem sound_ldpc : Sound ldpcMarker := by
  intro text rest m run
  simp only [ldpcMarker, run_bind_eq_some] at run
  obtain ⟨_, _, word, _, _, opened, _, _, blank, code, _, coded, _, _, comma, _, _, again, message, _,
    messaged, _, _, closed, done⟩ := run
  cases blank
  cases again
  obtain ⟨rfl, rfl⟩ := run_pure_eq_some.mp done
  obtain ⟨first, decimal, -⟩ := run_digits.mp coded
  obtain ⟨second, too, -⟩ := run_digits.mp messaged
  refine ⟨_, .ldpc decimal too, fun others laid => ?_⟩
  have behind := (Laid.cons second (laid.of_symbol closed)).of_symbol comma
  exact run_exactly.mp word ▸ ((Laid.cons first behind).of_symbol opened).here

theorem sound_enum : Sound enumMarker := by
  intro text rest m run
  simp only [enumMarker, run_bind_eq_some] at run
  obtain ⟨_, _, word, _, _, opened, _, _, blank, name, _, named, _, _, closed, done⟩ := run
  cases blank
  obtain ⟨rfl, rfl⟩ := run_pure_eq_some.mp done
  obtain ⟨split, own, -⟩ := run_key.mp named
  obtain ⟨before, opening⟩ := optionally_of_symbol? opened
  obtain ⟨after, closing⟩ := optionally_of_symbol? closed
  refine ⟨_, .enum own before after, fun others laid => ?_⟩
  have inner := opening _ (Laid.cons split (closing others laid))
  rw [run_exactly.mp word]
  simpa only [List.cons_append, List.append_assoc] using inner.here

theorem structLink_laid {name : String} (run : structLink.run text = some (name, rest)) :
    ∃ anchor, IsAnchor anchor ∧ IsKey name ∧ ∀ others, Laid others rest →
      Laid ("[[".toList :: anchor.toList :: "|".toList :: name.toList :: "]]".toList :: others)
        text := by
  simp only [structLink, run_bind_eq_some] at run
  obtain ⟨_, _, opened, _, _, blank, _, _, discarded, _, _, bar, _, _, again, key, _, named, _, _,
    closed, done⟩ := run
  cases blank
  cases again
  obtain ⟨rfl, rfl⟩ := run_pure_eq_some.mp done
  obtain ⟨anchor, linked⟩ := run_discard.mp discarded
  obtain ⟨split, target, -⟩ := run_anchor.mp linked
  obtain ⟨behind, own, -⟩ := run_key.mp named
  refine ⟨anchor, target, own, fun others laid => ?_⟩
  have inner := (Laid.cons behind (laid.of_symbol closed)).of_symbol bar
  exact run_exactly.mp opened ▸ (Laid.cons split inner).here

theorem sound_struct : Sound structMarker := by
  intro text rest m run
  simp only [structMarker, run_bind_eq_some] at run
  obtain ⟨_, _, word, _, _, opened, _, _, blank, name, _, named, _, _, closed, done⟩ := run
  cases blank
  obtain ⟨rfl, rfl⟩ := run_pure_eq_some.mp done
  obtain ⟨before, opening⟩ := optionally_of_symbol? opened
  obtain ⟨after, closing⟩ := optionally_of_symbol? closed
  rw [run_orElse, Option.or_eq_some_iff] at named
  rcases named with linked | ⟨-, plain⟩
  · obtain ⟨anchor, target, own, inner⟩ := structLink_laid linked
    refine ⟨_, .link target own before after, fun others laid => ?_⟩
    have inner := opening _ (inner _ (closing others laid)).of_dropWhile
    rw [run_exactly.mp word]
    simpa only [List.cons_append, List.append_assoc] using inner.here
  · obtain ⟨split, own, -⟩ := run_key.mp plain
    refine ⟨_, .struct own before after, fun others laid => ?_⟩
    have inner := opening _ (Laid.cons split (closing others laid))
    rw [run_exactly.mp word]
    simpa only [List.cons_append, List.append_assoc] using inner.here

theorem sound_template : Sound templateMarker := by
  intro text rest m run
  simp only [templateMarker, run_bind_eq_some] at run
  obtain ⟨_, _, opened, _, _, blank, name, _, linked, _, _, closed, done⟩ := run
  cases blank
  obtain ⟨rfl, rfl⟩ := run_pure_eq_some.mp done
  obtain ⟨split, target, -⟩ := run_anchor.mp linked
  refine ⟨_, .template target, fun others laid => ?_⟩
  exact run_exactly.mp opened ▸ (Laid.cons split (laid.of_symbol closed)).here

theorem sound_payload : Sound payloadMarker := by
  intro text rest m run
  simp only [payloadMarker, run_bind_eq_some] at run
  obtain ⟨_, _, word, done⟩ := run
  obtain ⟨rfl, rfl⟩ := run_pure_eq_some.mp done
  obtain ⟨own, folded, rfl⟩ := run_inAnyCase.mp word
  exact ⟨_, .payload folded, fun others laid => laid.here⟩

theorem sound_fixed : Sound fixedMarker := by
  intro text rest m run
  simp only [fixedMarker, run_bind_eq_some] at run
  obtain ⟨_, _, opened, _, _, blank, n, _, taken, _, _, closed, done⟩ := run
  cases blank
  obtain ⟨rfl, rfl⟩ := run_pure_eq_some.mp done
  obtain ⟨number, split⟩ := IsInteger.of_run taken
  obtain ⟨before, opening⟩ := optionally_of_option opened
  obtain ⟨after, closing⟩ := optionally_of_symbol? closed
  refine ⟨_, .fixed number before after, fun others laid => ?_⟩
  simpa only [List.cons_append, List.append_assoc] using
    opening _ (Laid.cons split (closing others laid))

/-- The alternatives but for the last one, which takes any text that speaks of a string. -/
def choice : Scan (MarkerOf Numeral) :=
  ldpcMarker <|> enumMarker <|> structMarker <|> templateMarker <|> payloadMarker <|> fixedMarker

theorem sound_choice : Sound choice :=
  sound_ldpc.orElse <| sound_enum.orElse <| sound_struct.orElse <| sound_template.orElse <|
    sound_payload.orElse sound_fixed

theorem run_marker : marker.run text = (choice.run text).or (stringMarker.run text) := by
  simp only [marker, choice, run_orElse, Option.or_assoc]

theorem run_ldpc {codeBits messageBits : Numeral} (code : IsDecimal codeBits)
    (message : IsDecimal messageBits)
    (laid : Laid ("LDPC".toList :: "(".toList :: codeBits :: ",".toList :: messageBits ::
      ")".toList :: others) text) :
    ∃ tail, ldpcMarker.run (text.dropWhile isBlank) = some (.ldpc codeBits messageBits, tail) ∧
      Laid others tail := by
  obtain ⟨_, word, laid⟩ := laid.dropWhile (by decide)
  obtain ⟨_, opened, laid⟩ := laid.symbol (by decide)
  obtain ⟨_, first, laid⟩ := laid.dropWhile code.inked
  have ends := laid.stops isDigit_of_isBlank ⟨',', rfl, rfl⟩
  obtain ⟨_, comma, laid⟩ := laid.symbol (by decide)
  obtain ⟨_, second, laid⟩ := laid.dropWhile message.inked
  have stops := laid.stops isDigit_of_isBlank ⟨')', rfl, rfl⟩
  obtain ⟨tail, closed, laid⟩ := laid.symbol (by decide)
  refine ⟨tail, ?_, laid⟩
  simp only [ldpcMarker, run_bind_eq_some]
  exact ⟨(), _, run_exactly.mpr word, (), _, opened, (), _, run_blanks, codeBits, _,
    run_digits.mpr ⟨first, code, ends⟩, (), _, comma, (), _, run_blanks, messageBits, _,
    run_digits.mpr ⟨second, message, stops⟩, (), tail, closed, rfl⟩

theorem run_template {anchor : String} (linked : IsAnchor anchor)
    (laid : Laid ("[[".toList :: anchor.toList :: "]]".toList :: others) text) :
    ∃ tail, templateMarker.run (text.dropWhile isBlank) = some (.template anchor, tail) ∧
      Laid others tail := by
  obtain ⟨_, opened, laid⟩ := laid.dropWhile (by decide)
  obtain ⟨_, split, laid⟩ := laid.dropWhile linked.inked
  have stops := laid.stops isKeyChar_of_isBlank ⟨']', rfl, rfl⟩
  obtain ⟨tail, closed, laid⟩ := laid.symbol (by decide)
  refine ⟨tail, ?_, laid⟩
  simp only [templateMarker, run_bind_eq_some]
  exact ⟨(), _, run_exactly.mpr opened, (), _, run_blanks, anchor, _,
    run_anchor.mpr ⟨split, linked, stops⟩, (), tail, closed, rfl⟩

theorem run_structLink {anchor name : String} (linked : IsAnchor anchor) (named : IsKey name)
    (laid : Laid ("[[".toList :: anchor.toList :: "|".toList :: name.toList :: "]]".toList ::
      others) text) :
    ∃ tail, structLink.run (text.dropWhile isBlank) = some (name, tail) ∧ Laid others tail := by
  obtain ⟨_, opened, laid⟩ := laid.dropWhile (by decide)
  obtain ⟨_, split, laid⟩ := laid.dropWhile linked.inked
  have ends := laid.stops isKeyChar_of_isBlank ⟨'|', rfl, rfl⟩
  obtain ⟨_, bar, laid⟩ := laid.symbol (by decide)
  obtain ⟨_, behind, laid⟩ := laid.dropWhile named.inked
  have stops := laid.stops isKeyChar_of_isBlank ⟨']', rfl, rfl⟩
  obtain ⟨tail, closed, laid⟩ := laid.symbol (by decide)
  refine ⟨tail, ?_, laid⟩
  simp only [structLink, run_bind_eq_some]
  exact ⟨(), _, run_exactly.mpr opened, (), _, run_blanks, (), _,
    run_discard.mpr ⟨anchor, run_anchor.mpr ⟨split, linked, ends⟩⟩, (), _, bar, (), _, run_blanks,
    name, _, run_key.mpr ⟨behind, named, stops⟩, (), tail, closed, rfl⟩

theorem run_payload {word : List Char} (folded : word.map Char.toLower = "payload".toList) :
    payloadMarker.run (word ++ rest) = some (.payload, rest) := by
  simp only [payloadMarker, run_bind_eq_some]
  exact ⟨(), rest, run_inAnyCase.mpr ⟨word, folded, rfl⟩, rfl⟩

/-- A keyword and its opening brace, if it has one, up to what stands in the braces. -/
theorem braced_run {word : String} {inner : List Char} {opened : Bool}
    (laid : Laid (word.toList :: (optionally opened "\x7b".toList ++ inner :: others)) text)
    (keyword : Inked word.toList) (ink : Inked inner)
    (plain : inner.head? ≠ "\x7b".toList.head?) :
    ∃ behind middle tail, text.dropWhile isBlank = word.toList ++ behind ∧
      (symbol? "\x7b").run behind = some ((), middle) ∧
      middle.dropWhile isBlank = inner ++ tail ∧ Laid others tail := by
  obtain ⟨behind, split, laid⟩ := laid.dropWhile keyword
  obtain ⟨middle, brace, laid⟩ := laid.symbol? (by decide) (by simpa using ⟨ink, plain⟩)
  obtain ⟨tail, inside, laid⟩ := laid.dropWhile ink
  exact ⟨behind, middle, tail, split, brace, inside, laid⟩

def Closes (others : List (List Char)) : Prop := ∀ element ∈ others.head?, element = "'".toList

theorem Closes.stops {holds : Char → Bool} {mark : String} {closed : Bool} (next : Closes others)
    (blank : ∀ b, isBlank b = true → holds b = false) (quote : holds '\'' = false)
    (own : ∃ c ∈ mark.toList.head?, holds c = false)
    (laid : Laid (optionally closed mark.toList ++ others) text) : Stops holds text := by
  refine laid.stops_of_head blank (forall_head_optionally own fun element first => ?_)
  rw [next element first]
  exact ⟨'\'', rfl, quote⟩

theorem symbol?_total (mark : String) (text : List Char) :
    ∃ tail, (symbol? mark).run text = some ((), tail) := by
  by_cases starts : mark.toList <+: text.dropWhile isBlank
  · obtain ⟨tail, split⟩ := starts
    exact ⟨tail, run_symbol?.mpr (.inl split.symm)⟩
  · exact ⟨_, run_symbol?.mpr (.inr ⟨starts, rfl⟩)⟩

/-- A closing option is there or not, and is then the last thing to be taken. -/
theorem closing_total (mark : String) (ink : Inked mark.toList)
    (apart : mark.toList.head? ≠ "'".toList.head?) (text : List Char) :
    ∃ tail, (symbol? mark).run text = some ((), tail) ∧ ∀ {closed others}, Closes others →
      Laid (optionally closed mark.toList ++ others) text → Laid others tail := by
  obtain ⟨tail, run⟩ := symbol?_total mark text
  refine ⟨tail, run, fun {closed others} next laid => ?_⟩
  obtain ⟨rest, again, laid⟩ := laid.symbol? ink fun element first => by
    rw [next element first]
    exact ⟨by decide, apart.symm⟩
  obtain ⟨-, rfl⟩ := Prod.mk.inj (Option.some.inj (run.symm.trans again))
  exact laid

theorem many1_total {holds : Char → Bool} {c : Char} (first : c ∈ text.head?)
    (own : holds c = true) : ∃ taken tail, (many1 holds).run text = some (taken, tail) := by
  refine ⟨text.takeWhile holds, text.dropWhile holds, if_neg ?_⟩
  cases text with
  | nil => cases first
  | cons d text =>
    obtain rfl : d = c := Option.some.inj first
    simp [own]

theorem IsKey.total {name : String} (named : IsKey name) (rest : List Char) :
    ∃ found tail, key.run (name.toList ++ rest) = Option.some (found, tail) ∧
      (Stops isKeyChar rest → found = name ∧ tail = rest) := by
  obtain ⟨c, more, split⟩ := List.exists_cons_of_ne_nil named.nonempty
  have own : isKeyChar c = true := isKeyChar_iff.mpr (named.chars c (by simp [split]))
  have first : c ∈ (name.toList ++ rest).head? := by
    rw [split]
    rfl
  obtain ⟨taken, tail, run⟩ := many1_total first own
  have read : key.run (name.toList ++ rest) = Option.some (String.ofList taken, tail) :=
    run_map_eq_some.mpr ⟨taken, run, rfl⟩
  refine ⟨String.ofList taken, tail, read, fun stops => ?_⟩
  exact Prod.mk.inj (Option.some.inj (read.symm.trans (run_key.mpr ⟨rfl, named, stops⟩)))

theorem IsInteger.total {n : Numeral} (number : IsInteger n) (rest : List Char) :
    ∃ found tail, integer.run (n ++ rest) = some (found, tail) ∧
      (Stops isNameChar rest → found = n ∧ tail = rest) := by
  obtain ⟨c, first, digit⟩ := number.start
  have starts : c ∈ (n ++ rest).head? := by
    rw [List.head?_append, Option.mem_def.mp first]
    rfl
  obtain ⟨ds, left, decimal⟩ : ∃ ds left, digits.run (n ++ rest) = some (ds, left) :=
    many1_total starts digit
  obtain ⟨⟨found, tail⟩, read⟩ : ∃ answer, integer.run (n ++ rest) = some answer := by
    rw [integer, run_orElse, decimal]
    cases Grammar.hexadecimal.run (n ++ rest) with
    | none => exact ⟨_, rfl⟩
    | some answer => exact ⟨answer, rfl⟩
  refine ⟨found, tail, read, fun stops => ?_⟩
  exact Prod.mk.inj (Option.some.inj (read.symm.trans (number.run stops)))

theorem run_enum {name : String} {behind middle left tail : List Char}
    (opened : (symbol? "\x7b").run behind = some ((), middle))
    (named : key.run (middle.dropWhile isBlank) = some (name, left))
    (closed : (symbol? "\x7d").run left = some ((), tail)) :
    enumMarker.run ("enum".toList ++ behind) = some (.enum name, tail) := by
  simp only [enumMarker, run_bind_eq_some]
  exact ⟨(), behind, run_exactly.mpr rfl, (), middle, opened, (), _, run_blanks, name, left, named,
    (), tail, closed, rfl⟩

theorem run_struct {name : String} {behind middle left tail : List Char}
    (opened : (symbol? "\x7b").run behind = some ((), middle))
    (named : (structLink <|> key).run (middle.dropWhile isBlank) = some (name, left))
    (closed : (symbol? "\x7d").run left = some ((), tail)) :
    structMarker.run ("struct".toList ++ behind) = some (.struct name, tail) := by
  simp only [structMarker, run_bind_eq_some]
  exact ⟨(), behind, run_exactly.mpr rfl, (), middle, opened, (), _, run_blanks, name, left, named,
    (), tail, closed, rfl⟩

theorem run_fixed {n : Numeral} {middle left tail : List Char}
    (opened : (symbol? "[=").run text = some ((), middle))
    (taken : integer.run (middle.dropWhile isBlank) = some (n, left))
    (closed : (symbol? "=]").run left = some ((), tail)) :
    fixedMarker.run (text.dropWhile isBlank) = some (.fixed n, tail) := by
  rw [run_symbol?_eq] at opened
  simp only [fixedMarker, run_bind_eq_some]
  exact ⟨(), middle, opened, (), _, run_blanks, n, left, taken, (), tail, closed, rfl⟩

theorem keyword_eq_none {α : Type} {mark : String} {next : Unit → Scan α}
    (filled : mark.toList ≠ []) (other : mark.toList.head? ≠ text.head?) :
    (exactly mark >>= next).run text = none := by
  have absent : ¬ mark.toList <+: text := by
    rintro ⟨rest, rfl⟩
    obtain ⟨c, word, split⟩ := List.exists_cons_of_ne_nil filled
    exact other (by rw [split]; rfl)
  rw [StateT.run_bind, run_exactly_eq_none.mpr absent]
  rfl

theorem payload_eq_none {c : Char} (first : c ∈ text.head?) (other : c.toLower ≠ 'p') :
    payloadMarker.run text = none := by
  refine Option.eq_none_iff_forall_ne_some.mpr ?_
  rintro ⟨m, rest⟩ run
  obtain ⟨_, _, word, -⟩ := run_bind_eq_some.mp run
  obtain ⟨own, folded, rfl⟩ := run_inAnyCase.mp word
  cases own with
  | nil => cases folded
  | cons d own =>
    obtain rfl : d = c := Option.some.inj first
    exact other (List.cons.inj folded).1

/-- Where none of the first characters of keywords and brackets comes first. -/
theorem choice_of_head {c : Char} (first : c ∈ text.head?) (ldpc : c ≠ 'L') (enum : c ≠ 'e')
    (struct : c ≠ 's') (template : c ≠ '[') :
    choice.run text = (payloadMarker.run text).or (fixedMarker.run text) := by
  have no {d : Char} (other : c ≠ d) : some d ≠ text.head? := by
    rw [Option.mem_def.mp first]
    exact fun same => other (Option.some.inj same).symm
  have ldpc : ldpcMarker.run text = none := keyword_eq_none (by decide) (no ldpc)
  have enum : enumMarker.run text = none := keyword_eq_none (by decide) (no enum)
  have struct : structMarker.run text = none := keyword_eq_none (by decide) (no struct)
  have template : templateMarker.run text = none := keyword_eq_none (by decide) (no template)
  simp only [choice, run_orElse, ldpc, enum, struct, template, Option.none_or]

theorem choice_of_payload {word : List Char} (folded : word.map Char.toLower = "payload".toList) :
    choice.run (word ++ rest) = some (.payload, rest) := by
  obtain ⟨c, more, rfl, lower⟩ : ∃ c more, word = c :: more ∧ c.toLower = 'p' := by
    cases word with
    | nil => cases folded
    | cons c more => exact ⟨c, more, rfl, (List.cons.inj folded).1⟩
  have no {d : Char} (other : d.toLower ≠ 'p') : c ≠ d := fun same => other (same ▸ lower)
  rw [choice_of_head (c := c) rfl (no (by decide)) (no (by decide)) (no (by decide))
    (no (by decide)), run_payload folded, Option.some_or]

/-- No keyword starts with a digit, and neither a keyword nor a template with `[=`. -/
theorem choice_of_fixed {n : Numeral} {opened : Bool} (number : IsInteger n)
    (laid : Laid (optionally opened "[=".toList ++ n :: others) text) :
    choice.run (text.dropWhile isBlank) = fixedMarker.run (text.dropWhile isBlank) := by
  cases opened with
  | true =>
    obtain ⟨tail, split, -⟩ := Laid.dropWhile laid (by decide)
    rw [split]
    rfl
  | false =>
    obtain ⟨tail, split, -⟩ := Laid.dropWhile laid number.inked
    obtain ⟨c, first, digit⟩ := number.start
    have starts : c ∈ (text.dropWhile isBlank).head? := by
      rw [split, List.head?_append, Option.mem_def.mp first]
      rfl
    have no {d : Char} (other : d.isDigit = false) : c ≠ d := by
      rintro rfl
      rw [digit] at other
      cases other
    have payload : payloadMarker.run (text.dropWhile isBlank) = none := by
      refine payload_eq_none starts ?_
      have small := Text.ascii_of_alphanum (c := c) (by simp [Char.isAlphanum, digit])
      exact Text.ascii_forall (P := fun c => c.isDigit = true → c.toLower ≠ 'p') (by decide) small
        digit
    rw [choice_of_head starts (no rfl) (no rfl) (no rfl) (no rfl), payload, Option.none_or]

theorem choice_of_enum {behind tail : List Char}
    (own : enumMarker.run ("enum".toList ++ behind) = some (m, tail)) :
    choice.run ("enum".toList ++ behind) = some (m, tail) := by
  have ldpc : ldpcMarker.run ("enum".toList ++ behind) = none := rfl
  rw [choice, run_orElse, ldpc, Option.none_or, run_orElse, own, Option.some_or]

theorem choice_of_struct {behind tail : List Char}
    (own : structMarker.run ("struct".toList ++ behind) = some (m, tail)) :
    choice.run ("struct".toList ++ behind) = some (m, tail) := by
  have ldpc : ldpcMarker.run ("struct".toList ++ behind) = none := rfl
  have enum : enumMarker.run ("struct".toList ++ behind) = none := rfl
  rw [choice, run_orElse, ldpc, Option.none_or, run_orElse, enum, Option.none_or, run_orElse, own,
    Option.some_or]

theorem choice_of_template {tail : List Char} (laid : Laid ("[[".toList :: others) text)
    (own : templateMarker.run (text.dropWhile isBlank) = some (m, tail)) :
    choice.run (text.dropWhile isBlank) = some (m, tail) := by
  obtain ⟨behind, split, -⟩ := laid.dropWhile (by decide)
  rw [split] at own ⊢
  have ldpc : ldpcMarker.run ("[[".toList ++ behind) = none := rfl
  have enum : enumMarker.run ("[[".toList ++ behind) = none := rfl
  have struct : structMarker.run ("[[".toList ++ behind) = none := rfl
  simp only [choice, run_orElse, ldpc, enum, struct, own, Option.none_or, Option.some_or]

theorem link_run {anchor name : String} {opened : Bool} (linked : IsAnchor anchor)
    (named : IsKey name)
    (laid : Laid ("struct".toList :: (optionally opened "\x7b".toList ++ "[[".toList ::
      anchor.toList :: "|".toList :: name.toList :: "]]".toList :: others)) text) :
    ∃ behind middle left, text.dropWhile isBlank = "struct".toList ++ behind ∧
      (symbol? "\x7b").run behind = some ((), middle) ∧
      (structLink <|> key).run (middle.dropWhile isBlank) = some (name, left) ∧
      Laid others left := by
  obtain ⟨behind, middle, _, split, before, inside, laid⟩ :=
    braced_run laid (by decide) (by decide) (by decide)
  obtain ⟨left, taken, laid⟩ := run_structLink linked named (Laid.cons inside laid)
  exact ⟨behind, middle, left, split, before, by rw [run_orElse, taken, Option.some_or], laid⟩

/-- A keyword and the key behind it, in braces or not. The key is the whole of what is taken if the
cell ends there. -/
theorem named_run {word name : String} {opened closed : Bool} (named : IsKey name)
    (keyword : Inked word.toList)
    (laid : Laid (word.toList :: (optionally opened "\x7b".toList ++ name.toList ::
      (optionally closed "\x7d".toList ++ others))) text) :
    ∃ start middle left found after tail, text.dropWhile isBlank = word.toList ++ start ∧
      (symbol? "\x7b").run start = some ((), middle) ∧
      middle.dropWhile isBlank = name.toList ++ left ∧
      key.run (middle.dropWhile isBlank) = some (found, after) ∧
      (symbol? "\x7d").run after = some ((), tail) ∧
      (Closes others → found = name ∧ Laid others tail) := by
  obtain ⟨start, middle, left, split, before, inside, laid⟩ :=
    braced_run laid keyword named.inked (named.head_ne rfl)
  obtain ⟨found, after, taken, whole⟩ := named.total left
  obtain ⟨tail, behind, closing⟩ := closing_total "\x7d" (by decide) (by decide) after
  refine ⟨start, middle, left, found, after, tail, split, before, inside, inside ▸ taken, behind,
    fun next => ?_⟩
  obtain ⟨rfl, rfl⟩ := whole (next.stops isKeyChar_of_isBlank rfl ⟨'}', rfl, rfl⟩ laid)
  exact ⟨rfl, closing next laid⟩

/-- A key is not taken for a link. -/
theorem run_name {name found : String} {tail : List Char} (named : IsKey name)
    (starts : text = name.toList ++ rest) (taken : key.run text = some (found, tail)) :
    (structLink <|> key).run text = some (found, tail) := by
  have link : structLink.run text = none := by
    refine keyword_eq_none (by decide) fun same => named.head_ne rfl (c := '[') ?_
    rw [starts, List.head?_append, List.head?_eq_some_head named.nonempty] at same
    rw [List.head?_eq_some_head named.nonempty]
    exact same.symm
  rw [run_orElse, link, Option.none_or, taken]

/-- Where a spelled marker begins a marker is read, and it is the one that is spelled if the cell
ends there. -/
theorem choice_run {elements : List (List Char)} (spelled : Spelled m elements)
    (laid : Laid (elements ++ others) text) :
    ∃ found tail, choice.run (text.dropWhile isBlank) = some (found, tail) ∧
      (Closes others → found = m ∧ Laid others tail) := by
  cases spelled with
  | @fixed n number opened closed =>
    rw [List.append_assoc, List.cons_append] at laid
    rw [choice_of_fixed number laid]
    have plain : Inked n ∧ n.head? ≠ "[=".toList.head? := ⟨number.inked, number.head_ne rfl⟩
    obtain ⟨middle, before, laid⟩ := laid.symbol? (by decide) (by simpa using plain)
    obtain ⟨left, split, laid⟩ := laid.dropWhile number.inked
    obtain ⟨found, behind, taken, whole⟩ := number.total left
    obtain ⟨tail, after, closing⟩ := closing_total "=]" (by decide) (by decide) behind
    refine ⟨_, tail, run_fixed before (split ▸ taken) after, fun next => ?_⟩
    obtain ⟨rfl, rfl⟩ := whole (next.stops isNameChar_of_isBlank rfl ⟨'=', rfl, rfl⟩ laid)
    exact ⟨rfl, closing next laid⟩
  | payload folded =>
    obtain ⟨tail, split, laid⟩ := Laid.dropWhile laid (inked_of_folded folded)
    exact ⟨_, tail, split ▸ choice_of_payload folded, fun _ => ⟨rfl, laid⟩⟩
  | ldpc code message =>
    obtain ⟨tail, own, laid⟩ := run_ldpc code message laid
    exact ⟨_, tail, by rw [choice, run_orElse, own, Option.some_or], fun _ => ⟨rfl, laid⟩⟩
  | @enum key named opened closed =>
    rw [List.cons_append, List.append_assoc, List.cons_append] at laid
    obtain ⟨start, middle, left, found, after, tail, split, before, -, taken, behind, whole⟩ :=
      named_run named (by decide) laid
    refine ⟨_, tail, split ▸ choice_of_enum (run_enum before taken behind), fun next => ?_⟩
    obtain ⟨rfl, rest⟩ := whole next
    exact ⟨rfl, rest⟩
  | @struct key named opened closed =>
    rw [List.cons_append, List.append_assoc, List.cons_append] at laid
    obtain ⟨start, middle, left, found, after, tail, split, before, inside, taken, behind, whole⟩ :=
      named_run named (by decide) laid
    have own := run_struct before (run_name named inside taken) behind
    refine ⟨_, tail, split ▸ choice_of_struct own, fun next => ?_⟩
    obtain ⟨rfl, rest⟩ := whole next
    exact ⟨rfl, rest⟩
  | @link anchor key linked named opened closed =>
    rw [List.cons_append, List.append_assoc] at laid
    obtain ⟨start, middle, left, split, before, target, laid⟩ := link_run linked named laid
    obtain ⟨tail, after, closing⟩ := closing_total "\x7d" (by decide) (by decide) left
    have own := run_struct before target after
    exact ⟨_, tail, split ▸ choice_of_struct own, fun next => ⟨rfl, closing next laid⟩⟩
  | template linked =>
    obtain ⟨tail, own, rest⟩ := run_template linked laid
    exact ⟨_, tail, choice_of_template laid own, fun _ => ⟨rfl, rest⟩⟩

theorem Spelled.inked {elements : List (List Char)} (spelled : Spelled m elements) :
    ∀ element ∈ elements, Inked element := by
  cases spelled with
  | fixed number opened closed =>
    simp only [List.forall_mem_append, List.forall_mem_cons]
    exact ⟨optionally_inked opened (by decide), number.inked, optionally_inked closed (by decide)⟩
  | payload folded => simpa using inked_of_folded folded
  | ldpc code message =>
    simp only [List.forall_mem_cons]
    exact ⟨by decide, by decide, code.inked, by decide, message.inked, by decide, by simp⟩
  | enum named opened closed =>
    simp only [List.forall_mem_append, List.forall_mem_cons]
    exact ⟨by decide, optionally_inked opened (by decide), named.inked,
      optionally_inked closed (by decide)⟩
  | struct named opened closed =>
    simp only [List.forall_mem_append, List.forall_mem_cons]
    exact ⟨by decide, optionally_inked opened (by decide), named.inked,
      optionally_inked closed (by decide)⟩
  | link linked named opened closed =>
    simp only [List.forall_mem_append, List.forall_mem_cons]
    exact ⟨by decide, optionally_inked opened (by decide), by decide, linked.inked, by decide,
      named.inked, by decide, optionally_inked closed (by decide)⟩
  | template linked =>
    simp only [List.forall_mem_cons]
    exact ⟨by decide, linked.inked, by decide, by simp⟩

/-- No marker starts with a quote. -/
theorem Spelled.start {elements : List (List Char)} (spelled : Spelled m elements) :
    ∃ first more, elements = first :: more ∧ first.head? ≠ "'".toList.head? := by
  cases spelled with
  | @fixed n number opened closed =>
    cases opened with
    | true => exact ⟨_, _, rfl, by decide⟩
    | false => exact ⟨n, _, rfl, number.head_ne rfl⟩
  | @payload word folded =>
    refine ⟨word, [], rfl, ?_⟩
    cases word with
    | nil => cases folded
    | cons c more =>
      intro same
      obtain rfl : c = '\'' := Option.some.inj same
      cases (List.cons.inj folded).1
  | ldpc => exact ⟨_, _, rfl, by decide⟩
  | enum => exact ⟨_, _, rfl, by decide⟩
  | struct => exact ⟨_, _, rfl, by decide⟩
  | link => exact ⟨_, _, rfl, by decide⟩
  | template => exact ⟨_, _, rfl, by decide⟩

end PacketSpec.Cell
