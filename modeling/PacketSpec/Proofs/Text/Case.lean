import PacketSpec.Text.Case

/-! Words are runs of ASCII letters and digits. A text that starts with a letter has a first word
that starts with the same letter. -/
namespace PacketSpec.Text

/-- A fact about every ASCII character follows from a look at each of them. -/
theorem ascii_forall {P : Char → Prop} (each : ∀ n : Fin 128, P (Char.ofNat n)) {c : Char}
    (small : c.toNat < 128) : P c := by
  have own := each ⟨c.toNat, small⟩
  rwa [Char.ofNat_toNat] at own

theorem ascii_of_alphanum {c : Char} (plain : c.isAlphanum = true) : c.toNat < 128 := by
  apply Nat.lt_of_not_le
  intro large
  have above (last : Char) (small : last.toNat < 128) : ¬ c.val ≤ last.val := by
    intro within
    have : c.toNat ≤ last.toNat := UInt32.le_iff_toNat_le.mp within
    omega
  have ranges : c.isAlphanum =
      (decide (c.val ≥ 'A'.val ∧ c.val ≤ 'Z'.val) ||
        decide (c.val ≥ 'a'.val) && decide (c.val ≤ 'z'.val) ||
        decide (c.val ≥ '0'.val) && decide (c.val ≤ '9'.val)) := rfl
  simp only [ranges, Bool.or_eq_true, Bool.and_eq_true, decide_eq_true_eq] at plain
  rcases plain with (upper | lower) | digit
  · exact above 'Z' (by decide) upper.2
  · exact above 'z' (by decide) lower.2
  · exact above '9' (by decide) digit.2

theorem isAlphanum_toUpper {c : Char} (plain : c.isAlphanum = true) :
    c.toUpper.isAlphanum = true :=
  ascii_forall (P := fun c => c.isAlphanum = true → c.toUpper.isAlphanum = true) (by decide)
    (ascii_of_alphanum plain) plain

theorem isAlphanum_toLower {c : Char} (plain : c.isAlphanum = true) :
    c.toLower.isAlphanum = true :=
  ascii_forall (P := fun c => c.isAlphanum = true → c.toLower.isAlphanum = true) (by decide)
    (ascii_of_alphanum plain) plain

theorem isAlphanum_of_alpha {c : Char} (letter : c.isAlpha = true) : c.isAlphanum = true := by
  rw [Char.isAlphanum, letter, Bool.true_or]

theorem isAlpha_toUpper {c : Char} (letter : c.isAlpha = true) : c.toUpper.isAlpha = true :=
  ascii_forall (P := fun c => c.isAlpha = true → c.toUpper.isAlpha = true) (by decide)
    (ascii_of_alphanum (isAlphanum_of_alpha letter)) letter

def IsWord (word : List Char) : Prop := word ≠ [] ∧ ∀ c ∈ word, c.isAlphanum = true

theorem splitRuns_words {run chars : List Char} (plain : ∀ c ∈ run, c.isAlphanum = true) :
    ∀ word ∈ splitRuns run chars, IsWord word := by
  induction chars generalizing run with
  | nil =>
    unfold splitRuns
    split
    · simp
    · next nonempty => simpa using ⟨by simpa using nonempty, plain⟩
  | cons c rest ih =>
    unfold splitRuns
    split
    · next also => exact ih (by simpa [or_imp, forall_and] using ⟨plain, also⟩)
    · split
      · exact ih (by simp)
      · next nonempty =>
        exact List.forall_mem_cons.mpr ⟨⟨by simpa using nonempty, plain⟩, ih (by simp)⟩

/-- A word in upper case has begun. -/
theorem splitRun_words {mode : CaseMode} {word chars : List Char}
    (begun : mode = .upper → word ≠ []) (plain : ∀ c ∈ word ++ chars, c.isAlphanum = true) :
    ∀ part ∈ splitRun mode word chars, IsWord part := by
  induction chars generalizing mode word with
  | nil =>
    unfold splitRun
    split
    · simp
    · next nonempty => simpa using ⟨by simpa using nonempty, by simpa using plain⟩
  | cons c rest ih =>
    cases rest with
    | nil =>
      unfold splitRun
      simpa using ⟨by simp, plain⟩
    | cons d rest =>
      have own : ∀ other ∈ word, other.isAlphanum = true := fun other member =>
        plain other (List.mem_append_left _ member)
      have first : c.isAlphanum = true := plain c (by simp)
      have others : ∀ other ∈ d :: rest, other.isAlphanum = true := fun other member =>
        plain other (List.mem_append_right _ (.tail _ member))
      have grown : ∀ other ∈ word ++ [c], other.isAlphanum = true := by
        simpa [or_imp, forall_and] using ⟨own, first⟩
      unfold splitRun
      split
      · refine List.forall_mem_cons.mpr ⟨⟨by simp, grown⟩, ih (by simp) ?_⟩
        rwa [List.nil_append]
      · split
        · next upper =>
          refine List.forall_mem_cons.mpr ⟨⟨begun upper.1, own⟩, ih (by simp) ?_⟩
          exact List.forall_mem_cons.mpr ⟨first, others⟩
        · exact ih (by simp) (by simpa using plain)

theorem words_are_words (text : String) : ∀ word ∈ words text, IsWord word := by
  intro word member
  obtain ⟨run, inside, member⟩ := List.mem_flatMap.mp member
  have plain := (splitRuns_words (by simp) run inside).2
  exact splitRun_words (by simp) (by simpa using plain) word member

theorem splitRuns_head (c : Char) (run chars : List Char) :
    ∃ more others, splitRuns (c :: run) chars = (c :: more) :: others := by
  induction chars generalizing run with
  | nil => exact ⟨run, [], rfl⟩
  | cons d rest ih =>
    unfold splitRuns
    split
    · exact ih (run ++ [d])
    · exact ⟨run, _, rfl⟩

theorem splitRun_head (mode : CaseMode) (c : Char) (word chars : List Char) :
    ∃ more others, splitRun mode (c :: word) chars = (c :: more) :: others := by
  induction chars generalizing mode word with
  | nil => exact ⟨word, [], rfl⟩
  | cons d rest ih =>
    cases rest with
    | nil => exact ⟨word ++ [d], [], rfl⟩
    | cons e rest =>
      unfold splitRun
      split
      · exact ⟨word ++ [d], _, rfl⟩
      · split
        · exact ⟨word, _, rfl⟩
        · exact ih (mode.step d) (word ++ [d])

theorem splitRun_start (c : Char) (chars : List Char) :
    ∃ more others, splitRun .boundary [] (c :: chars) = (c :: more) :: others := by
  cases chars with
  | nil => exact ⟨[], [], rfl⟩
  | cons d rest =>
    unfold splitRun
    split
    · exact ⟨[], _, rfl⟩
    · rw [if_neg (by simp)]
      exact splitRun_head _ c [] (d :: rest)

/-- A text that starts with a letter or digit has a first word that starts with it. -/
theorem words_head {text : String} {c : Char} {rest : List Char}
    (starts : text.toList = c :: rest) (plain : c.isAlphanum = true) :
    ∃ more others, words text = (c :: more) :: others := by
  obtain ⟨run, runs, first⟩ := splitRuns_head c [] rest
  obtain ⟨more, others, start⟩ := splitRun_start c run
  have split : splitRuns [] text.toList = (c :: run) :: runs := by
    rw [starts, splitRuns, if_pos plain, List.nil_append, first]
  exact ⟨more, others ++ runs.flatMap (splitRun .boundary []), by
    rw [words, split, List.flatMap_cons, start, List.cons_append]⟩

theorem mem_joinWords {parts : List (List Char)} {c : Char}
    (member : c ∈ (joinWords parts).toList) : c = '_' ∨ ∃ part ∈ parts, c ∈ part := by
  rw [joinWords, String.toList_ofList] at member
  induction parts with
  | nil => simp at member
  | cons part rest ih =>
    cases rest with
    | nil => exact .inr ⟨part, .head _, by simpa using member⟩
    | cons next rest =>
      rw [List.intercalate_cons_cons, List.mem_append, List.mem_append] at member
      rcases member with (own | mark) | later
      · exact .inr ⟨part, .head _, own⟩
      · exact .inl (List.mem_singleton.mp mark)
      · rcases ih later with mark | ⟨other, inside, own⟩
        · exact .inl mark
        · exact .inr ⟨other, .tail _ inside, own⟩

theorem joinWords_head (c : Char) (word : List Char) (others : List (List Char)) :
    ∃ rest, (joinWords ((c :: word) :: others)).toList = c :: rest := by
  cases others with
  | nil => exact ⟨word, by simp [joinWords]⟩
  | cons next rest =>
    refine ⟨word ++ ['_'] ++ ['_'].intercalate (next :: rest), ?_⟩
    rw [joinWords, String.toList_ofList, List.intercalate_cons_cons, List.cons_append,
      List.cons_append]

/-- A text that starts with a letter gives a name in shouting case that starts with one too and has
letters, digits and underscores. -/
theorem shoutingCase_chars {text : String} {c : Char} {rest : List Char}
    (starts : text.toList = c :: rest) (letter : c.isAlpha = true) :
    ∃ more, (shoutingCase text).toList = c.toUpper :: more ∧
      ∀ d ∈ more, d.isAlphanum = true ∨ d = '_' := by
  obtain ⟨word, others, split⟩ := words_head starts (isAlphanum_of_alpha letter)
  obtain ⟨more, same⟩ := joinWords_head c.toUpper (word.map Char.toUpper)
    (others.map (·.map Char.toUpper))
  have whole : (shoutingCase text).toList = c.toUpper :: more := by
    rw [shoutingCase, split, List.map_cons, List.map_cons, same]
  refine ⟨more, whole, fun d member => ?_⟩
  have inside : d ∈ (shoutingCase text).toList := by
    rw [whole]
    exact .tail _ member
  rcases mem_joinWords inside with mark | ⟨part, listed, own⟩
  · exact .inr mark
  · obtain ⟨word, among, rfl⟩ := List.mem_map.mp listed
    obtain ⟨e, within, rfl⟩ := List.mem_map.mp own
    exact .inl (isAlphanum_toUpper ((words_are_words text word among).2 e within))

end PacketSpec.Text
