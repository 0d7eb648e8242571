import PacketSpec.Proofs.Text.Case
import PacketSpec.Text.Basic

/-! Names in snake case are words of lower case letters and digits with an underscore between any
two. They are split back into their words, so shouting them keeps them apart. -/
namespace PacketSpec.Text

structure IsLowerWord (word : List Char) : Prop where
  isWord : IsWord word
  lower : ∀ c ∈ word, c.isUpper = false

def IsSnake (text : String) : Prop :=
  ∃ parts, (∀ part ∈ parts, IsLowerWord part) ∧ text = joinWords parts

theorem isUpper_toLower {c : Char} (plain : c.isAlphanum = true) : c.toLower.isUpper = false :=
  ascii_forall (P := fun c => c.toLower.isUpper = false) (by decide) (ascii_of_alphanum plain)

theorem toLower_toUpper {c : Char} (plain : c.isAlphanum = true) (lower : c.isUpper = false) :
    c.toUpper.toLower = c :=
  ascii_forall (P := fun c => c.isUpper = false → c.toUpper.toLower = c) (by decide)
    (ascii_of_alphanum plain) lower

theorem isSnake_snakeCase (text : String) : IsSnake (snakeCase text) := by
  refine ⟨_, ?_, rfl⟩
  intro part member
  obtain ⟨word, listed, rfl⟩ := List.mem_map.mp member
  obtain ⟨nonempty, plain⟩ := words_are_words text word listed
  constructor
  · constructor
    · simpa using nonempty
    · intro c inside
      obtain ⟨d, own, rfl⟩ := List.mem_map.mp inside
      exact isAlphanum_toLower (plain d own)
  · intro c inside
    obtain ⟨d, own, rfl⟩ := List.mem_map.mp inside
    exact isUpper_toLower (plain d own)

/-- The first character of a name in snake case is a letter or digit. -/
theorem IsSnake.head {text : String} {c : Char} {rest : List Char} (snake : IsSnake text)
    (starts : text.toList = c :: rest) : c.isAlphanum = true := by
  obtain ⟨parts, each, rfl⟩ := snake
  cases parts with
  | nil => simp [joinWords] at starts
  | cons word others =>
    obtain ⟨nonempty, plain⟩ := (each word (.head _)).isWord
    cases word with
    | nil => exact absurd rfl nonempty
    | cons first word =>
      obtain ⟨more, same⟩ := joinWords_head first word others
      obtain ⟨rfl, -⟩ := List.cons.inj (same.symm.trans starts)
      exact plain first (.head _)

theorem splitRuns_append {run word rest : List Char} (plain : ∀ c ∈ word, c.isAlphanum = true) :
    splitRuns run (word ++ rest) = splitRuns (run ++ word) rest := by
  induction word generalizing run with
  | nil => simp
  | cons c word ih =>
    rw [List.cons_append, splitRuns, if_pos (plain c (.head _)),
      ih fun d member => plain d (.tail _ member), List.append_assoc, List.singleton_append]

theorem splitRuns_joinWords {parts : List (List Char)} (each : ∀ part ∈ parts, IsWord part) :
    splitRuns [] (joinWords parts).toList = parts := by
  rw [joinWords, String.toList_ofList]
  induction parts with
  | nil => rfl
  | cons part rest ih =>
    obtain ⟨filled, plain⟩ := each part (.head _)
    have nonempty : part.isEmpty = false := by simpa using filled
    cases rest with
    | nil =>
      have whole : splitRuns [] (part ++ []) = splitRuns ([] ++ part) [] := splitRuns_append plain
      rw [List.append_nil, List.nil_append] at whole
      rw [List.intercalate_singleton, whole, splitRuns, nonempty]
      rfl
    | cons next rest =>
      rw [List.intercalate_cons_cons, List.append_assoc, splitRuns_append plain, List.nil_append,
        List.singleton_append, splitRuns, if_neg (by decide), nonempty, if_neg (by simp)]
      rw [ih fun other member => each other (.tail _ member)]

theorem splitRun_lower {mode : CaseMode} {word chars : List Char} (filled : word ++ chars ≠ [])
    (lower : ∀ c ∈ chars, c.isUpper = false) : splitRun mode word chars = [word ++ chars] := by
  induction chars generalizing mode word with
  | nil =>
    rw [List.append_nil] at filled
    simp [splitRun, filled]
  | cons c rest ih =>
    cases rest with
    | nil => rfl
    | cons d rest =>
      have first := lower c (.head _)
      have second := lower d (.tail _ (.head _))
      rw [splitRun, if_neg (by simp [second]), if_neg (by simp [first]),
        ih (by simp) fun e member => lower e (.tail _ member), List.append_assoc]
      rfl

/-- The words of a name in snake case are those that it was joined from. -/
theorem words_joinWords {parts : List (List Char)} (each : ∀ part ∈ parts, IsLowerWord part) :
    words (joinWords parts) = parts := by
  rw [words, splitRuns_joinWords fun part member => (each part member).isWord]
  induction parts with
  | nil => rfl
  | cons part rest ih =>
    obtain ⟨⟨filled, -⟩, lower⟩ := each part (.head _)
    rw [List.flatMap_cons, splitRun_lower (by simpa using filled) lower, List.nil_append,
      List.singleton_append, ih fun other member => each other (.tail _ member)]

/-- A shouted name is read back from its runs of letters and digits. -/
theorem lower_splitRuns_shoutingCase {text : String} (snake : IsSnake text) :
    joinWords ((splitRuns [] (shoutingCase text).toList).map (·.map Char.toLower)) = text := by
  obtain ⟨parts, each, rfl⟩ := snake
  have shouted : ∀ part ∈ parts.map (·.map Char.toUpper), IsWord part := by
    intro part member
    obtain ⟨word, listed, rfl⟩ := List.mem_map.mp member
    obtain ⟨nonempty, plain⟩ := (each word listed).isWord
    constructor
    · simpa using nonempty
    · intro c inside
      obtain ⟨d, own, rfl⟩ := List.mem_map.mp inside
      exact isAlphanum_toUpper (plain d own)
  have lowered : ∀ part ∈ parts, (part.map Char.toUpper).map Char.toLower = part := by
    intro part listed
    obtain ⟨⟨-, plain⟩, lower⟩ := each part listed
    rw [List.map_map]
    calc part.map (Char.toLower ∘ Char.toUpper)
        = part.map id := List.map_congr_left fun c own => toLower_toUpper (plain c own) (lower c own)
      _ = part := List.map_id part
  rw [shoutingCase, words_joinWords each, splitRuns_joinWords shouted, List.map_map]
  congr 1
  calc parts.map ((·.map Char.toLower) ∘ (·.map Char.toUpper))
      = parts.map id := List.map_congr_left lowered
    _ = parts := List.map_id parts

theorem shoutingCase_injective {one other : String} (snake : IsSnake one) (also : IsSnake other)
    (same : shoutingCase one = shoutingCase other) : one = other := by
  rw [← lower_splitRuns_shoutingCase snake, same, lower_splitRuns_shoutingCase also]

theorem underscore_not_mem {word : List Char} (isWord : IsWord word) : '_' ∉ word := by
  intro member
  have plain := isWord.2 '_' member
  simp at plain

/-- An underscore of joined words stands between two of them. -/
theorem intercalate_eq_append {parts : List (List Char)} {front back : List Char}
    (each : ∀ part ∈ parts, IsWord part) (whole : ['_'].intercalate parts = front ++ '_' :: back) :
    ∃ first before next after, parts = first :: before ++ next :: after ∧
      front = ['_'].intercalate (first :: before) ∧ back = ['_'].intercalate (next :: after) := by
  induction parts generalizing front with
  | nil => simp at whole
  | cons part rest ih =>
    have unmarked := underscore_not_mem (each part (.head _))
    cases rest with
    | nil =>
      rw [List.intercalate_singleton] at whole
      simp [whole] at unmarked
    | cons next rest =>
      rw [List.intercalate_cons_cons, List.append_assoc, List.singleton_append] at whole
      rcases List.append_eq_append_iff.mp whole with ⟨more, longer, tail⟩ | ⟨more, shorter, tail⟩
      · cases more with
        | nil =>
          have same := (List.cons.inj tail).2
          exact ⟨part, [], next, rest, rfl, by simpa using longer, same.symm⟩
        | cons c more =>
          obtain ⟨first, before, last, after, same, own, others⟩ :=
            ih (fun other member => each other (.tail _ member)) (List.cons.inj tail).2
          refine ⟨part, first :: before, last, after, by rw [same]; rfl, ?_, others⟩
          rw [longer, ← (List.cons.inj tail).1, own, List.intercalate_cons_cons,
            List.append_assoc, List.singleton_append]
      · cases more with
        | nil =>
          have same := (List.cons.inj tail).2
          exact ⟨part, [], next, rest, rfl, by simpa using shorter.symm, same⟩
        | cons c more => simp [shorter, ← (List.cons.inj tail).1] at unmarked

theorem eq_append_of_dropEnding? {text ending front : String}
    (dropped : dropEnding? text ending = some front) :
    text.toList = front.toList ++ ending.toList := by
  unfold dropEnding? endsWith at dropped
  split at dropped
  · next ends =>
    obtain rfl := Option.some.inj dropped
    have whole := List.suffix_iff_eq_append.mp (List.isSuffixOf_iff_suffix.mp ends)
    rw [String.toList_ofList, ← String.length_toList, ← String.length_toList, whole]
  · cases dropped

/-- What stands before an ending that starts a word is in snake case as well. -/
theorem IsSnake.dropEnding {text ending front : String} {chars : List Char} (snake : IsSnake text)
    (starts : ending.toList = '_' :: chars) (dropped : dropEnding? text ending = some front) :
    IsSnake front := by
  obtain ⟨parts, each, rfl⟩ := snake
  have whole := eq_append_of_dropEnding? dropped
  rw [joinWords, String.toList_ofList, starts] at whole
  obtain ⟨first, before, next, after, rfl, own, -⟩ :=
    intercalate_eq_append (fun part member => (each part member).isWord) whole
  refine ⟨first :: before, fun part member => each part (List.mem_append_left _ member), ?_⟩
  rw [joinWords, ← own, String.ofList_toList]

/-- Letters, digits and underscores, of which the last character is none. -/
structure IsSimple (name : String) : Prop where
  chars : ∀ c ∈ name.toList, c.isAlphanum = true ∨ c = '_'
  last : name.toList.getLast? ≠ some '_'

theorem isSimple_of_alphanum {name : String} (plain : ∀ c ∈ name.toList, c.isAlphanum = true) :
    IsSimple name := by
  constructor
  · exact fun c member => .inl (plain c member)
  · intro last
    have mark := plain '_' (List.mem_of_getLast? last)
    simp at mark

theorem capitalize_plain {word : List Char} (isWord : IsWord word) :
    ∀ c ∈ capitalize word, c.isAlphanum = true := by
  obtain ⟨-, plain⟩ := isWord
  cases word with
  | nil => simp [capitalize]
  | cons c rest =>
    rw [capitalize, List.forall_mem_cons]
    constructor
    · exact isAlphanum_toUpper (plain c (.head _))
    · intro d member
      obtain ⟨e, own, rfl⟩ := List.mem_map.mp member
      exact isAlphanum_toLower (plain e (.tail _ own))

theorem isSimple_camelCase (text : String) : IsSimple (camelCase text) := by
  apply isSimple_of_alphanum
  intro c member
  rw [camelCase, String.toList_ofList, List.mem_flatten] at member
  obtain ⟨part, listed, inside⟩ := member
  obtain ⟨word, own, rfl⟩ := List.mem_map.mp listed
  exact capitalize_plain (words_are_words text word own) c inside

theorem IsSnake.isSimple {text : String} (snake : IsSnake text) : IsSimple text := by
  obtain ⟨parts, each, rfl⟩ := snake
  constructor
  · intro c member
    rcases mem_joinWords member with mark | ⟨part, listed, own⟩
    · exact .inr mark
    · exact .inl ((each part listed).isWord.2 c own)
  · intro last
    obtain ⟨front, whole⟩ := List.getLast?_eq_some_iff.mp last
    rw [joinWords, String.toList_ofList] at whole
    have words : ∀ part ∈ parts, IsWord part := fun part member => (each part member).isWord
    obtain ⟨first, before, next, after, rfl, -, nothing⟩ := intercalate_eq_append words whole
    have filled := (words next (List.mem_append_right _ (.head _))).1
    cases after with
    | nil => exact filled (by simpa using nothing.symm)
    | cons => simp at nothing

end PacketSpec.Text
