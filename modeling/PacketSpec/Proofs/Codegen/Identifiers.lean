import PacketSpec.Codegen.Enums
import PacketSpec.Proofs.Builder.Change
import PacketSpec.Proofs.Codegen.Segments
import PacketSpec.Proofs.Text.Case

/-! Which names have a token in the generated code: those that are identifiers, and the names of
constants for descriptor kinds that are. -/
namespace PacketSpec.Codegen

open Text (isXidStart isXidContinue)

theorem isXidStart_ascii {c : Char} (small : c.toNat < 128) : isXidStart c = c.isAlpha :=
  if_pos small

theorem isXidContinue_ascii {c : Char} (small : c.toNat < 128) :
    isXidContinue c = (c.isAlphanum || c == '_') := if_pos small

theorem isXidContinue_plain {c : Char} (plain : c.isAlphanum = true ∨ c = '_') :
    isXidContinue c = true := by
  rcases plain with plain | rfl
  · rw [isXidContinue_ascii (Text.ascii_of_alphanum plain), plain, Bool.true_or]
  · decide

/-- Names of letters, digits and underscores are identifiers. -/
theorem isIdentChars_of_isIdentifier {name : String} (valid : Text.isIdentifier name = true) :
    isIdentChars name.toList = true := by
  unfold Text.isIdentifier at valid
  split at valid
  · cases valid
  · next c rest chars =>
    simp only [Bool.and_eq_true, Bool.or_eq_true, beq_iff_eq, List.all_eq_true] at valid
    obtain ⟨start, plain⟩ := valid
    simp only [chars, isIdentChars, Bool.and_eq_true, Bool.or_eq_true, beq_iff_eq,
      List.all_eq_true]
    refine ⟨?_, fun d member => isXidContinue_plain (plain d (.tail _ member))⟩
    rcases start with letter | mark
    · have small := Text.ascii_of_alphanum (Text.isAlphanum_of_alpha letter)
      exact .inr (by rw [isXidStart_ascii small, letter])
    · exact .inl mark

theorem lexicalIdent_succeeds {name : String} (valid : isIdentChars name.toList = true) :
    lexicalIdent name = .ok name := by
  unfold lexicalIdent
  split
  · next rest chars =>
    -- the second character of an identifier cannot be a mark
    have mark : isXidContinue '#' = false := by decide
    simp [chars, isIdentChars, mark] at valid
  · rw [if_pos valid]

/-- Every identifier has a token, keywords too. -/
theorem named_of_isIdentChars {name : String} (valid : isIdentChars name.toList = true) :
    Named name := by
  have raw : ∀ word ∈ keywords, Succeeds (lexicalIdent ("r#" ++ word)) := by
    decide +kernel
  have path : ∀ word ∈ pathKeywords, Succeeds (lexicalIdent (word ++ "_")) := by
    decide +kernel
  have text : Succeeds (identText name) := by
    unfold identText
    split
    · next keyword => exact raw name (by simpa using keyword)
    · split
      · next keyword => exact path name (by simpa using keyword)
      · exact ⟨name, lexicalIdent_succeeds valid⟩
  obtain ⟨code, known⟩ : Succeeds (ident name) := text.bind fun text _ => .pure _
  exact named_of_ident known

/-- The constant of a kind that is an identifier is one as well. -/
theorem kindConstant_succeeds {kind : String} (snake : Text.IsSnake kind)
    (valid : isIdentChars kind.toList = true) : Succeeds (kindConstant kind) := by
  cases chars : kind.toList with
  | nil => simp [chars, isIdentChars] at valid
  | cons c rest =>
    have plain := snake.head chars
    have small := Text.ascii_of_alphanum plain
    have letter : c.isAlpha = true := by
      simp only [chars, isIdentChars, Bool.and_eq_true, Bool.or_eq_true, beq_iff_eq] at valid
      rcases valid.1 with rfl | start
      · simp at plain
      · rwa [isXidStart_ascii small] at start
    obtain ⟨others, shouted, marks⟩ := Text.shoutingCase_chars chars letter
    have upper := Text.isAlpha_toUpper letter
    have valid : isIdentChars (Text.shoutingCase kind).toList = true := by
      simp only [shouted, isIdentChars, Bool.and_eq_true, Bool.or_eq_true, List.all_eq_true]
      refine ⟨.inr ?_, fun d member => isXidContinue_plain (marks d member)⟩
      rw [isXidStart_ascii (Text.ascii_of_alphanum (Text.isAlphanum_of_alpha upper)), upper]
    exact ⟨_, by rw [kindConstant, plainIdent, lexicalIdent_succeeds valid]; rfl⟩

end PacketSpec.Codegen
