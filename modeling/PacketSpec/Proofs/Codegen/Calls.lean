import PacketSpec.Proofs.Codec.Calls
import PacketSpec.Proofs.Codegen.Scopes

/-! The calls that generated code makes, found again in its tokens: an encoder calls the writer, and
a decoder the reader, as the layout of the structure says. -/
namespace PacketSpec

namespace Codegen

inductive Use where
  | method (name : String)
  | passedOn
  deriving DecidableEq, Repr

/-- What is done with a variable that stands right before the code. Methods that only ask how far a
reader is are left out. -/
def useBefore : Code → List Use
  | .mark '.' :: .word name :: _ =>
    if name = "remaining" ∨ name = "offset" then [] else [.method name]
  | .mark ')' :: _ => [.passedOn]
  | _ => []

/-- What is done with a variable. A name behind a dot is that of a field or a method. -/
def usesOf (name : String) : Code → List Use
  | .mark '.' :: .word _ :: rest => usesOf name rest
  | .word text :: rest => (if text = name then useBefore rest else []) ++ usesOf name rest
  | _ :: rest => usesOf name rest
  | [] => []

/-- The code does this with the variable, whatever follows. -/
def Uses (name : String) (text : Code) (uses : List Use) : Prop :=
  ∀ rest, usesOf name (text ++ rest) = uses ++ usesOf name rest

def Silent (name : String) (text : Code) : Prop := Uses name text []

/-- Whether the code does not mention the variable and does not break off at a dot. -/
def isQuiet (name : String) (text : Code) : Bool :=
  !text.contains (.word name) && text.getLast? != some (.mark '.')

section Reading

variable {name word : String} {one other text value : Code} {uses more : List Use}

theorem Uses.append (first : Uses name one uses) (second : Uses name other more) :
    Uses name (one ++ other) (uses ++ more) := by
  intro rest
  rw [List.append_assoc, first, second, List.append_assoc]

theorem Uses.append_silent (first : Uses name one uses) (second : Silent name other) :
    Uses name (one ++ other) uses := by
  simpa using first.append second

theorem Uses.append_uses (first : Uses name one []) (second : Uses name other uses) :
    Uses name (one ++ other) uses := first.append second

theorem Silent.append (first : Silent name one) (second : Silent name other) :
    Silent name (one ++ other) := Uses.append_uses first second

theorem silent_nil : Silent name [] := fun _ => rfl

theorem usesOf_mark {c : Char} (plain : c ≠ '.') (rest : Code) :
    usesOf name (.mark c :: rest) = usesOf name rest := by
  rw [usesOf]
  · rintro _ _ ⟨⟩
    exact absurd rfl plain
  · rintro _ ⟨⟩

theorem isQuiet_tail {token : Token} (quiet : isQuiet name (token :: text) = true) :
    isQuiet name text = true := by
  cases text with
  | nil => rfl
  | cons next text =>
    simp only [isQuiet, List.contains_cons, List.getLast?_cons_cons, Bool.not_or,
      Bool.and_eq_true] at quiet ⊢
    exact ⟨quiet.1.2, quiet.2⟩

/-- Fixed text that does not mention the variable. -/
theorem silent (quiet : isQuiet name text = true) : Silent name text := by
  intro rest
  fun_induction usesOf name text with
  | case1 word text ih => exact ih (isQuiet_tail (isQuiet_tail quiet))
  | case2 word text ih =>
    have other : word ≠ name := by
      rintro rfl
      simp [isQuiet] at quiet
    rw [List.cons_append, usesOf, if_neg other]
    exact ih (isQuiet_tail quiet)
  | case3 token text unread unnamed ih =>
    have later := ih (isQuiet_tail quiet)
    cases token with
    | word word => exact absurd rfl (unnamed word)
    | quoted value => exact later
    | mark c =>
      by_cases dot : c = '.'
      · subst dot
        -- what follows the dot is not a name, and there is something
        cases text with
        | nil => simp [isQuiet] at quiet
        | cons next text =>
          cases next with
          | word word => exact absurd rfl (unread word text rfl)
          | mark c => exact later
          | quoted value => exact later
      · rw [List.cons_append, usesOf_mark dot]
        exact later
  | case4 => rfl

theorem Uses.append_quiet (first : Uses name one uses) (quiet : isQuiet name other = true) :
    Uses name (one ++ other) uses := first.append_silent (silent quiet)

theorem Uses.read (first : Uses name text uses) (rest : Code) :
    usesOf name (text ++ rest) = uses ++ usesOf name rest := first rest

theorem Uses.whole (all : Uses name text uses) : usesOf name text = uses := by
  have alone := all []
  rwa [List.append_nil, usesOf, List.append_nil] at alone

theorem Silent.read (first : Silent name text) (rest : Code) :
    usesOf name (text ++ rest) = usesOf name rest := first rest

theorem usesOf_quiet (quiet : isQuiet name text = true) (rest : Code) :
    usesOf name (text ++ rest) = usesOf name rest := (silent quiet).read rest

theorem usesOf_enclosed {left right : Char} (plain : left ≠ '.') (rest : Code) :
    usesOf name (.mark left :: text ++ [.mark right] ++ rest) =
      usesOf name (text ++ ([.mark right] ++ rest)) := by
  rw [List.cons_append, List.cons_append, usesOf_mark plain, List.append_assoc]

theorem usesOf_parens (rest : Code) :
    usesOf name (parens text ++ rest) = usesOf name (text ++ ([.mark ')'] ++ rest)) :=
  usesOf_enclosed (by decide) rest

theorem usesOf_braces (rest : Code) :
    usesOf name (braces text ++ rest) = usesOf name (text ++ ([.mark '\x7d'] ++ rest)) :=
  usesOf_enclosed (by decide) rest

theorem usesOf_quoted (value : String) (rest : Code) :
    usesOf name ([.quoted value] ++ rest) = usesOf name rest := rfl

theorem silent_word (other : word ≠ name) : Silent name [.word word] := by
  intro rest
  rw [List.singleton_append, usesOf, if_neg other]

theorem Uses.enclosed {left right : Char} (inner : Uses name text uses) (plain : left ≠ '.')
    (closing : right ≠ '.') : Uses name (.mark left :: text ++ [.mark right]) uses := by
  intro rest
  rw [usesOf_enclosed plain, inner, List.singleton_append, usesOf_mark closing]

theorem Uses.parens (inner : Uses name text uses) : Uses name (parens text) uses :=
  inner.enclosed (by decide) (by decide)

theorem Uses.brackets (inner : Uses name text uses) : Uses name (brackets text) uses :=
  inner.enclosed (by decide) (by decide)

theorem Uses.braces (inner : Uses name text uses) : Uses name (braces text) uses :=
  inner.enclosed (by decide) (by decide)

/-- A name may be that of the variable where nothing is done with it. -/
theorem Uses.named (word : String) (plain : ∀ rest, useBefore (text ++ rest) = [])
    (inner : Uses name text uses) : Uses name ([.word word] ++ text) uses := by
  intro rest
  rw [List.append_assoc, List.singleton_append, usesOf, plain, inner]
  split <;> rfl

/-- An implementation for a type does what its methods do. -/
theorem Uses.impl (type : String) (quiet : isQuiet name one = true) (inner : Uses name text uses) :
    Uses name (one ++ [.word type] ++ Codegen.braces text) uses := by
  rw [List.append_assoc]
  exact (silent quiet).append_uses (inner.braces.named type fun _ => rfl)

/-- A field of `self` may have any name. -/
theorem silent_held (word : String) (other : "self" ≠ name) :
    Silent name (code "self." ++ [.word word]) := by
  intro rest
  have spelled : code "self." ++ [.word word] ++ rest =
      .word "self" :: .mark '.' :: .word word :: rest := rfl
  rw [spelled, usesOf, if_neg other]
  rfl

theorem silent_flatten {parts : List Code} (each : ∀ part ∈ parts, Silent name part) :
    Silent name parts.flatten := by
  induction parts with
  | nil => exact silent_nil
  | cons part rest ih =>
    exact (each part (.head _)).append (ih fun other member => each other (.tail _ member))

theorem silent_mapM {α : Type} {items : List α} {step : α → Except Fault Code} {parts : List Code}
    (each : ∀ item part, step item = .ok part → Silent name part)
    (run : items.mapM step = .ok parts) : Silent name parts.flatten := by
  have pairs := forall₂_of_mapM run
  clear run
  induction pairs with
  | nil => exact silent_nil
  | cons known _ ih => exact (each _ _ known).append ih

theorem silent_joinWith {parts : List Code} {c : Char} (plain : c ≠ '.')
    (each : ∀ part ∈ parts, Silent name part) : Silent name (joinWith c parts) := by
  unfold joinWith
  induction parts with
  | nil => exact silent_nil
  | cons part rest ih =>
    have first := each part (.head _)
    have others := ih fun other member => each other (.tail _ member)
    cases rest with
    | nil => simpa using first
    | cons next rest =>
      rw [List.intercalate_cons_cons]
      have separator : Silent name [.mark c] := usesOf_mark plain
      exact (first.append separator).append others

def IsVariable (name : String) : Prop := name.toList.head?.all (!·.isDigit) = true

instance (name : String) : Decidable (IsVariable name) := inferInstanceAs (Decidable (_ = true))

theorem silent_digit (isVariable : IsVariable name)
    (digit : ∃ c ∈ word.toList.head?, c.isDigit = true) : Silent name [.word word] := by
  apply silent_word
  rintro rfl
  obtain ⟨c, first, digit⟩ := digit
  rw [IsVariable, first] at isVariable
  simp [digit] at isVariable

theorem silent_number (isVariable : IsVariable name) (n : Nat) : Silent name (number n) := by
  apply silent_digit isVariable
  obtain ⟨c, rest, digits⟩ := List.exists_cons_of_ne_nil (Nat.toDigits_ne_nil (b := 10) (n := n))
  refine ⟨c, ?_, ?_⟩
  · rw [Text.decimal, String.toList_ofList, digits]
    rfl
  · exact Nat.isDigit_of_mem_toDigits (by decide) (by decide) (digits ▸ List.mem_cons_self)

theorem silent_hexNumber (isVariable : IsVariable name) (n : Nat) : Silent name (hexNumber n) := by
  apply silent_digit isVariable
  rw [Text.hex, String.toList_ofList]
  exact ⟨'0', rfl, by decide⟩

theorem silent_mask (isVariable : IsVariable name) (bits : Nat) : Silent name (mask bits) := by
  apply silent_digit isVariable
  rw [maskText, String.toList_ofList]
  exact ⟨'0', rfl, by decide⟩

theorem silent_byteLength (isVariable : IsVariable name) (size : Nat) (count : Silent name value) :
    Silent name (byteLength value size) := by
  unfold byteLength
  split
  · exact count
  · have times : Silent name (code "*") := usesOf_mark (by decide)
    exact (count.append times).append (silent_number isVariable size)

end Reading

end Codegen

open Codegen (Use integerName)

def Codegen.integerMethod (verb : String) (width : Nat) (signed : Bool) : List Use :=
  match integerName width signed with
  | .ok name => [.method s!"{verb}_{name}"]
  | .error _ => []

/-- How an encoder makes a call. Payloads are left to the caller. -/
def Call.puts : Call → List Use
  | .integer width signed => Codegen.integerMethod "put" width signed
  | .rational => [.method "put_rational"]
  | .array | .slice => [.method "put_slice"]
  | .text => [.method "put_fixed_str"]
  | .gap => [.method "put_zeros"]
  | .parity _ => [.method "put_ldpc"]
  | .payload => []
  | .nested _ => [.passedOn]

def Call.gets : Call → List Use
  | .integer width signed => Codegen.integerMethod "get" width signed
  | .rational => [.method "get_rational"]
  | .array => [.method "get_array"]
  | .slice | .payload => [.method "get_bytes"]
  | .text => [.method "get_fixed_str"]
  | .gap | .parity _ => [.method "skip"]
  | .nested _ => [.passedOn]

end PacketSpec
