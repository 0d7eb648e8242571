import Mathlib.Data.List.Forall2
import PacketSpec.Codegen.Data
import PacketSpec.Proofs.Size
import PacketSpec.Proofs.Text.Snake

/-! The names that generated code declares, read back from its tokens: the fields of a structure,
the variants of an enumeration and the constants of a type. -/
namespace PacketSpec.Codegen

def escaped (name : String) : String :=
  if keywords.contains name then "r#" ++ name
  else if pathKeywords.contains name then name ++ "_"
  else name

theorem lexicalIdent_eq_ok {text word : String} (known : lexicalIdent text = .ok word) :
    word = text := by
  unfold lexicalIdent at known
  split at known
  · simp only at known
    split at known
    · exact (Except.ok.inj known).symm
    · cases known
  · split at known
    · exact (Except.ok.inj known).symm
    · cases known

theorem ident_eq_ok {name : String} {word : Code} (known : ident name = .ok word) :
    word = [.word (escaped name)] := by
  have same : identText name = lexicalIdent (escaped name) := by
    unfold identText escaped
    split
    · rfl
    · split <;> rfl
  rw [ident, same, bind_eq_ok] at known
  obtain ⟨text, lexical, rest⟩ := known
  obtain rfl := pure_eq_ok.mp rest
  rw [lexicalIdent_eq_ok lexical]

def unescaped (text : String) : List Char :=
  match text.toList with
  | 'r' :: '#' :: name => name
  | chars => if chars.getLast? = some '_' then chars.dropLast else chars

/-- No simple name looks like an escaped one, so names are read back. -/
theorem unescaped_escaped {name : String} (simple : Text.IsSimple name) :
    unescaped (escaped name) = name.toList := by
  unfold escaped
  split
  · rw [unescaped, String.toList_append]
    rfl
  · split
    · next path =>
      have each : ∀ word ∈ pathKeywords, unescaped (word ++ "_") = word.toList := by
        decide
      exact each name (by simpa using path)
    · unfold unescaped
      split
      · next rest chars =>
        have mark := simple.chars '#' (by simp [chars])
        simp at mark
      · rw [if_neg simple.last]

/-- Escaping keeps names apart. -/
theorem escaped_injective {one other : String} (simple : Text.IsSimple one)
    (also : Text.IsSimple other) (same : escaped one = escaped other) : one = other := by
  apply String.toList_inj.mp
  rw [← unescaped_escaped simple, same, unescaped_escaped also]

theorem escaped_ne_pub (name : String) : escaped name ≠ "pub" := by
  unfold escaped
  intro same
  split at same
  · have chars := congrArg String.toList same
    simp [String.toList_append] at chars
  · next plain =>
    split at same
    · next path =>
      have each : ∀ word ∈ pathKeywords, word ++ "_" ≠ "pub" := by decide
      exact each name (by simpa using path) same
    · subst same
      exact plain (by decide)

/-- The tokens between the first opening brace and the next closing one. -/
def scope (decl : Code) : Code :=
  ((decl.dropWhile (· != .mark '\x7b')).drop 1).takeWhile (· != .mark '\x7d')

/-- The name before a colon that follows the given words at the start of the code. -/
def nameBehind? : (lead : List String) → Code → Option String
  | word :: lead, .word text :: rest => if text = word then nameBehind? lead rest else none
  | [], .word name :: .mark c :: _ => if c = ':' then some name else none
  | _, _ => none

def namesBehind (lead : List String) : Code → List String
  | [] => []
  | token :: rest => (nameBehind? lead (token :: rest)).toList ++ namesBehind lead rest

/-- The words that stand in no bracket, counted from `depth` open ones. -/
def outerWords : (depth : Nat) → Code → List String
  | _, [] => []
  | depth, .word text :: rest =>
    if depth = 0 then text :: outerWords depth rest else outerWords depth rest
  | depth, .mark c :: rest =>
    if c = '(' ∨ c = '[' then outerWords (depth + 1) rest
    else if c = ')' ∨ c = ']' then outerWords (depth - 1) rest
    else outerWords depth rest
  | depth, .quoted _ :: rest => outerWords depth rest

def fieldNames (decl : Code) : List String := namesBehind ["pub"] (scope decl)

def variantNames (decl : Code) : List String := outerWords 0 (scope decl)

def constantNames (decl : Code) : List String := namesBehind ["pub", "const"] decl

def Encloses (decl inner : Code) : Prop :=
  ∃ front back, decl = front ++ braces inner ++ back ∧
    .mark '\x7b' ∉ front ∧ .mark '\x7d' ∉ inner

theorem encloses_braces {front inner : Code} (unopened : .mark '\x7b' ∉ front)
    (unclosed : .mark '\x7d' ∉ inner) : Encloses (front ++ braces inner) inner :=
  ⟨front, [], by simp, unopened, unclosed⟩

theorem Encloses.append {decl inner : Code} (encloses : Encloses decl inner) (more : Code) :
    Encloses (decl ++ more) inner := by
  obtain ⟨front, back, rfl, unopened, unclosed⟩ := encloses
  exact ⟨front, back ++ more, by simp, unopened, unclosed⟩

theorem Encloses.scope_eq {decl inner : Code} (encloses : Encloses decl inner) :
    scope decl = inner := by
  obtain ⟨front, back, rfl, unopened, unclosed⟩ := encloses
  have opens : (front ++ braces inner ++ back).dropWhile (· != .mark '\x7b') =
      braces inner ++ back := by
    rw [List.append_assoc, List.dropWhile_append_of_pos]
    · rfl
    · intro token member
      exact bne_iff_ne.mpr fun same => unopened (same ▸ member)
  have closes : (inner ++ .mark '\x7d' :: back).takeWhile (· != .mark '\x7d') = inner := by
    rw [List.takeWhile_append_of_pos]
    · simp
    · intro token member
      exact bne_iff_ne.mpr fun same => unclosed (same ▸ member)
  rw [scope, opens, braces, List.append_assoc]
  exact closes

/-- Code without the word that opens a declaration declares nothing. -/
theorem namesBehind_append {lead : List String} {front back : Code}
    (silent : .word "pub" ∉ front) :
    namesBehind ("pub" :: lead) (front ++ back) = namesBehind ("pub" :: lead) back := by
  induction front with
  | nil => rfl
  | cons token front ih =>
    have other : nameBehind? ("pub" :: lead) (token :: (front ++ back)) = none := by
      cases token with
      | word text =>
        have different : text ≠ "pub" := fun same => silent (same ▸ .head _)
        rw [nameBehind?, if_neg different]
      | mark c => rfl
      | quoted value => rfl
    rw [List.cons_append, namesBehind, other, ih fun member => silent (.tail _ member)]
    rfl

theorem nameBehind?_append {lead : List String} {text : Code} (rest : Code)
    (long : lead.length + 2 ≤ text.length) :
    nameBehind? lead (text ++ rest) = nameBehind? lead text := by
  induction lead generalizing text with
  | nil =>
    rcases text with - | ⟨first, - | ⟨second, text⟩⟩
    · simp at long
    · simp at long
    · cases first <;> cases second <;> rfl
  | cons word lead ih =>
    cases text with
    | nil => simp at long
    | cons token text =>
      have shorter : lead.length + 2 ≤ text.length := by simpa using long
      cases token with
      | word text => simp only [List.cons_append, nameBehind?, ih shorter]
      | mark c => rfl
      | quoted value => rfl

/-- No declaration is opened so near to the end of the code that its name could stand behind it. -/
def Settled (lead : List String) (text : Code) : Prop :=
  .word "pub" ∉ text.drop (text.length - (lead.length + 2))

instance (lead : List String) (text : Code) : Decidable (Settled lead text) :=
  inferInstanceAs (Decidable (_ ∉ _))

/-- Such code can be read apart from what follows it. -/
theorem namesBehind_append_of_end {lead : List String} {front : Code} (back : Code)
    (ends : Settled lead front) :
    namesBehind ("pub" :: lead) (front ++ back) =
      namesBehind ("pub" :: lead) front ++ namesBehind ("pub" :: lead) back := by
  induction front with
  | nil => rfl
  | cons token front ih =>
    by_cases long : lead.length + 2 ≤ front.length
    · have longer : (token :: front).length - (lead.length + 2) =
          front.length - (lead.length + 2) + 1 := by
        rw [List.length_cons]
        omega
      rw [Settled, longer, List.drop_succ_cons] at ends
      have same : nameBehind? ("pub" :: lead) (token :: front ++ back) =
          nameBehind? ("pub" :: lead) (token :: front) :=
        nameBehind?_append back (by simpa using long)
      rw [List.cons_append] at same
      rw [List.cons_append, namesBehind, namesBehind, same, ih ends, List.append_assoc]
    · have short : (token :: front).length - (lead.length + 2) = 0 := by
        rw [List.length_cons]
        omega
      rw [Settled, short, List.drop_zero] at ends
      have alone : namesBehind ("pub" :: lead) (token :: front ++ []) = [] := namesBehind_append ends
      rw [List.append_nil] at alone
      rw [namesBehind_append ends, alone]
      rfl

variable {α β ε : Type}

/-- Where all steps succeed, each one gives its part of the result. -/
theorem forall₂_of_mapM {items : List α} {step : α → Except ε β} {results : List β}
    (run : items.mapM step = .ok results) :
    List.Forall₂ (fun item result => step item = .ok result) items results := by
  induction items generalizing results with
  | nil =>
    obtain rfl := pure_eq_ok.mp run
    exact .nil
  | cons item rest ih =>
    rw [List.mapM_cons] at run
    simp only [bind_eq_ok, pure_eq_ok] at run
    obtain ⟨result, first, others, remaining, rfl⟩ := run
    exact .cons first (ih remaining)

theorem exists_of_mapM {items : List α} {step : α → Except ε β} {results : List β}
    (run : items.mapM step = .ok results) {item : α} (member : item ∈ items) :
    ∃ result ∈ results, step item = .ok result := by
  have pairs := forall₂_of_mapM run
  clear run
  induction pairs with
  | nil => cases member
  | cons first rest ih =>
    rcases List.mem_cons.mp member with rfl | later
    · exact ⟨_, .head _, first⟩
    · obtain ⟨result, inside, given⟩ := ih later
      exact ⟨result, .tail _ inside, given⟩

theorem eq_map_of_mapM {items : List α} {step : α → Except ε β} {result : α → β}
    {results : List β} (each : ∀ item b, step item = .ok b → b = result item)
    (run : items.mapM step = .ok results) : results = items.map result := by
  have pairs := forall₂_of_mapM run
  clear run
  induction pairs with
  | nil => rfl
  | cons first rest ih => rw [List.map_cons, each _ _ first, ih]

theorem eq_map_of_idents {items : List α} {name : α → String} {data : α → β}
    {entries : List (Code × β)}
    (run : (items.mapM fun item => do return (← ident (name item), data item)) = .ok entries) :
    entries = items.map fun item => ([.word (escaped (name item))], data item) := by
  apply eq_map_of_mapM _ run
  intro item entry known
  simp only [bind_eq_ok, pure_eq_ok] at known
  obtain ⟨word, known, rfl⟩ := known
  rw [ident_eq_ok known]

/-- Code that neither opens a declaration nor closes a scope. -/
structure Quiet (text : Code) : Prop where
  silent : .word "pub" ∉ text
  unclosed : .mark '\x7d' ∉ text

instance (text : Code) : Decidable (Quiet text) :=
  decidable_of_iff (.word "pub" ∉ text ∧ .mark '\x7d' ∉ text)
    ⟨fun both => ⟨both.1, both.2⟩, fun quiet => ⟨quiet.silent, quiet.unclosed⟩⟩

theorem Quiet.append {one other : Code} (first : Quiet one) (second : Quiet other) :
    Quiet (one ++ other) := by
  constructor
  · simpa using ⟨first.silent, second.silent⟩
  · simpa using ⟨first.unclosed, second.unclosed⟩

theorem Quiet.brackets {text : Code} (quiet : Quiet text) : Quiet (brackets text) :=
  ((by decide : Quiet [.mark '[']).append quiet).append (by decide)

theorem quiet_word {text : String} (other : text ≠ "pub") : Quiet [.word text] := by
  constructor
  · simpa using other.symm
  · simp

theorem quiet_number (n : Nat) : Quiet (number n) := by
  apply quiet_word
  intro same
  have member : 'p' ∈ (Text.decimal n).toList := by rw [same]; decide
  rw [Text.decimal, String.toList_ofList] at member
  have digit := Nat.isDigit_of_mem_toDigits (by decide) (by decide) member
  simp at digit

theorem quiet_ident {name : String} {word : Code} (known : ident name = .ok word) : Quiet word := by
  rw [ident_eq_ok known]
  exact quiet_word (escaped_ne_pub name)

def integerNames : List String := ["u8", "u16", "u32", "u64", "i8", "i16", "i32", "i64"]

theorem mem_integerNames {width : Nat} {signed : Bool} {name : String}
    (known : integerName width signed = .ok name) : name ∈ integerNames := by
  simp only [integerName, bind_eq_ok, pure_eq_ok] at known
  obtain ⟨bits, rounded, rfl⟩ := known
  have sizes : bits ∈ [8, 16, 32, 64] := by
    unfold integerWidth at rounded
    repeat (split at rounded; · obtain rfl := Except.ok.inj rounded; decide)
    cases rounded
  have each : ∀ bits ∈ [8, 16, 32, 64], ∀ signed : Bool,
      (if signed then s!"i{Text.decimal bits}" else s!"u{Text.decimal bits}") ∈ integerNames := by
    decide
  exact each bits sizes signed

theorem quiet_integer {width : Nat} {signed : Bool} {word : Code}
    (known : integer width signed = .ok word) : Quiet word := by
  simp only [integer, bind_eq_ok, pure_eq_ok] at known
  obtain ⟨name, named, rfl⟩ := known
  have each : ∀ name ∈ integerNames, Quiet [.word name] := by decide
  exact each name (mem_integerNames named)

theorem quiet_elementType {field : Field} {text : Code} (known : elementType field = .ok text) :
    Quiet text := by
  unfold elementType at known
  split at known
  · rw [← pure_eq_ok.mp known]
    decide
  · cases shape : field.shape with
    | scalar signed =>
      rw [shape] at known
      exact quiet_integer known
    | struct typeId | enum typeId =>
      rw [shape] at known
      exact quiet_ident known
    | bytes =>
      rw [shape] at known
      rw [← pure_eq_ok.mp known]
      exact ((by decide : Quiet (code "u8;")).append (quiet_number _)).brackets
    | string capacity =>
      rw [shape] at known
      rw [← pure_eq_ok.mp known]
      apply Quiet.append _ (by decide)
      exact (by decide : Quiet (code "FixedStr<")).append (quiet_number _)
    | bitfield | rational | descriptor =>
      rw [shape] at known
      rw [← pure_eq_ok.mp known]
      decide
    | padding | parity | payload =>
      rw [shape] at known
      cases known

theorem quiet_fieldType {field : Field} {text : Code} (known : fieldType field = .ok text) :
    Quiet text := by
  simp only [fieldType, bind_eq_ok] at known
  obtain ⟨element, elements, known⟩ := known
  have quiet := quiet_elementType elements
  split at known
  · rwa [← pure_eq_ok.mp known]
  · rw [← pure_eq_ok.mp known]
    exact ((quiet.append (by decide)).append (quiet_number _)).brackets
  · split at known
    · rw [← pure_eq_ok.mp known]
      decide
    · rw [← pure_eq_ok.mp known]
      exact ((by decide : Quiet (code "Vec<")).append quiet).append (by decide)

theorem namesBehind_field {name : String} (other : name ≠ "pub") (rest : Code) :
    namesBehind ["pub"] (.word "pub" :: .word name :: .mark ':' :: rest) =
      name :: namesBehind ["pub"] rest := by
  simp [namesBehind, nameBehind?, other]

/-- The declared fields of a structure, one after the other. -/
theorem namesBehind_fields {fields : List Field} {declared : List Code}
    (run : (fields.map fun field => ([Token.word (escaped field.id)], field)).mapM
      (fun entry => do
        return code "pub" ++ entry.1 ++ code ":" ++ (← fieldType entry.2) ++ code ",") =
      .ok declared) :
    .mark '\x7d' ∉ declared.flatten ∧
      namesBehind ["pub"] declared.flatten = fields.map fun field => escaped field.id := by
  have pairs := List.forall₂_map_left_iff.mp (forall₂_of_mapM run)
  clear run
  induction pairs with
  | nil => exact ⟨by simp, rfl⟩
  | cons first _ ih =>
    obtain ⟨unclosed, names⟩ := ih
    obtain ⟨type, typed, same⟩ := bind_eq_ok.mp first
    obtain rfl := pure_eq_ok.mp same
    have quiet : Quiet (type ++ code ",") := (quiet_fieldType typed).append (by decide)
    have opening : code "pub" = [.word "pub"] := rfl
    have colon : code ":" = [.mark ':'] := rfl
    rw [List.flatten_cons, opening, colon, List.append_assoc _ type]
    generalize type ++ code "," = typed at quiet
    simp only [List.cons_append, List.nil_append]
    constructor
    · simp only [List.mem_cons, List.mem_append, reduceCtorEq, Token.mark.injEq, false_or, not_or]
      exact ⟨by decide, quiet.unclosed, unclosed⟩
    · rw [namesBehind_field (escaped_ne_pub _), namesBehind_append quiet.silent, names,
        List.map_cons]

theorem docComment_eq (text : String) : docComment text =
    [.mark '#', .mark '[', .word "doc", .mark '=', .quoted text, .mark ']'] := by
  have hash : code "#" = [.mark '#'] := rfl
  have doc : code "doc =" = [.word "doc", .mark '='] := rfl
  rw [docComment, hash, doc]
  rfl

theorem fieldNames_structDecl {s : Struct} {decl : Code} (generated : structDecl s = .ok decl) :
    fieldNames decl = s.storedFields.map fun field => escaped field.id := by
  simp only [structDecl, bind_eq_ok] at generated
  obtain ⟨name, named, fields, listed, declared, run, generated⟩ := generated
  rw [eq_map_of_idents listed] at run
  obtain ⟨unclosed, names⟩ := namesBehind_fields run
  have front : .mark '\x7b' ∉ docComment (structDoc s) ++
      code "#[derive(Debug, Clone, PartialEq, Eq)]" ++ code "pub struct" ++ name := by
    have derived : .mark '\x7b' ∉ code "#[derive(Debug, Clone, PartialEq, Eq)]" ++
        code "pub struct" := by
      decide
    rw [docComment_eq, ident_eq_ok named]
    simpa using derived
  have encloses : Encloses decl declared.flatten := by
    split at generated
    · simp only [bind_eq_ok, pure_eq_ok] at generated
      obtain ⟨constant, -, _, rfl, rfl⟩ := generated
      iterate 6 apply Encloses.append
      exact encloses_braces front unclosed
    · simp only [bind_eq_ok, pure_eq_ok] at generated
      obtain ⟨_, rfl, rfl⟩ := generated
      iterate 6 apply Encloses.append
      exact encloses_braces front unclosed
  rw [fieldNames, encloses.scope_eq, names]

/-- The variants of an enumeration in its declaration. Behind the mark of the default one, which
stands in brackets, all have the same form. -/
def memberList (entries : List (Code × Code)) (index : Nat) : Code :=
  (entries.zipIdx index).flatMap fun entry =>
    (if (entry.2 == 0) = true then code "#[default]" else []) ++ entry.1.1 ++ code ","

theorem memberList_cons (entry : Code × Code) (rest : List (Code × Code)) (index : Nat) :
    memberList (entry :: rest) index =
      (if (index == 0) = true then code "#[default]" else []) ++ entry.1 ++ code "," ++
        memberList rest (index + 1) := by
  rw [memberList, List.zipIdx_cons, List.flatMap_cons]
  rfl

theorem outerWords_memberList (members : List EnumMember) (value : EnumMember → Code)
    (index : Nat) (rest : Code) :
    outerWords 0 (memberList (members.map fun member =>
        ([Token.word (escaped member.id)], value member)) index ++ rest) =
      (members.map fun member => escaped member.id) ++ outerWords 0 rest := by
  have default : code "#[default]" = [.mark '#', .mark '[', .word "default", .mark ']'] := by
    decide
  have comma : code "," = [.mark ','] := rfl
  induction members generalizing index with
  | nil => rfl
  | cons member others ih =>
    rw [List.map_cons, memberList_cons, default, comma]
    by_cases first : (index == 0) = true
    · simp [first, outerWords, ih]
    · simp [first, outerWords, ih]

theorem unclosed_memberList (members : List EnumMember) (value : EnumMember → Code) (index : Nat) :
    .mark '\x7d' ∉ memberList (members.map fun member =>
      ([Token.word (escaped member.id)], value member)) index := by
  have default : .mark '\x7d' ∉ code "#[default]" := by decide
  have comma : .mark '\x7d' ∉ code "," := by decide
  induction members generalizing index with
  | nil => simp [memberList]
  | cons member others ih =>
    rw [List.map_cons, memberList_cons]
    by_cases first : (index == 0) = true
    · simp [first, default, comma, ih]
    · simp [first, comma, ih]

theorem variantNames_enumDecl {e : Enum} {decl : Code} (generated : enumDecl e = .ok decl) :
    variantNames decl = (e.members.map fun member => escaped member.id) ++ ["Unknown"] := by
  simp only [enumDecl, bind_eq_ok, pure_eq_ok] at generated
  obtain ⟨name, named, members, listed, generated⟩ := generated
  have names := outerWords_memberList e.members (fun member => hexNumber member.value) 0
  have unclosed := unclosed_memberList e.members (fun member => hexNumber member.value) 0
  rw [← eq_map_of_idents listed] at unclosed names
  have unknown : .mark '\x7d' ∉ code "Unknown(u64)," ∧
      outerWords 0 (code "Unknown(u64),") = ["Unknown"] := by
    decide
  have front : .mark '\x7b' ∉ code "#" ++ brackets (code "derive" ++ parens (
      code "Debug," ++ (if members.isEmpty = true then [] else code "Default,") ++
      code "Clone, Copy, PartialEq, Eq, Hash")) ++ code "pub enum" ++ name := by
    have derived : ∀ empty : Bool, .mark '\x7b' ∉ code "#" ++ brackets (code "derive" ++ parens (
        code "Debug," ++ (if empty = true then [] else code "Default,") ++
        code "Clone, Copy, PartialEq, Eq, Hash")) ++ code "pub enum" := by
      decide
    rw [ident_eq_ok named, List.mem_append, not_or]
    exact ⟨derived members.isEmpty, by simp⟩
  have inner : .mark '\x7d' ∉ memberList members 0 ++ code "Unknown(u64)," := by
    simpa using ⟨unclosed, unknown.1⟩
  have encloses : Encloses decl (memberList members 0 ++ code "Unknown(u64),") := by
    rw [← generated]
    iterate 8 apply Encloses.append
    exact encloses_braces front inner
  rw [variantNames, encloses.scope_eq, names, unknown.2]

theorem outerWords_variants (names : List String) :
    .mark '\x7d' ∉ ((names.map fun name => [Token.word name]).flatMap fun name =>
        name ++ parens name ++ code ",") ∧
      outerWords 0 ((names.map fun name => [Token.word name]).flatMap fun name =>
        name ++ parens name ++ code ",") = names := by
  have comma : code "," = [.mark ','] := rfl
  rw [comma]
  induction names with
  | nil => simp [outerWords]
  | cons name rest ih =>
    obtain ⟨unclosed, names⟩ := ih
    rw [List.map_cons, List.flatMap_cons]
    constructor
    · rw [List.mem_append, not_or]
      exact ⟨by simp [parens], unclosed⟩
    · simpa [parens, outerWords] using names

theorem variantNames_packetUnion {model : Model} {decl : Code}
    (generated : packetUnion model = .ok decl) :
    variantNames decl = model.toplevel.map fun s => escaped s.id := by
  simp only [packetUnion, bind_eq_ok, pure_eq_ok] at generated
  obtain ⟨names, named, arms, -, others, -, generated⟩ := generated
  obtain ⟨unclosed, variants⟩ := outerWords_variants (model.toplevel.map fun s => escaped s.id)
  have words : names = (model.toplevel.map fun s => escaped s.id).map fun name => [.word name] := by
    rw [List.map_map]
    exact eq_map_of_mapM (fun s word => ident_eq_ok) named
  rw [← words] at unclosed variants
  have front : .mark '\x7b' ∉ docComment " Packets decoded from the start of a buffer." ++
      code "#[derive(Debug, Clone, PartialEq, Eq)]" ++ code "pub enum PacketData" := by
    decide
  have encloses : Encloses decl (names.flatMap fun name => name ++ parens name ++ code ",") := by
    rw [← generated]
    iterate 3 apply Encloses.append
    exact encloses_braces front unclosed
  rw [variantNames, encloses.scope_eq, variants]

theorem quiet_hexNumber (n : Nat) : Quiet (hexNumber n) := by
  apply quiet_word
  intro same
  have chars := congrArg String.toList same
  simp [Text.hex] at chars

theorem Quiet.parens {text : Code} (quiet : Quiet text) : Quiet (parens text) :=
  ((by decide : Quiet [.mark '(']).append quiet).append (by decide)

theorem quiet_docComment (text : String) : Quiet (docComment text) := by
  rw [docComment_eq]
  constructor <;> simp

/-- Upper case letters do not open a declaration. -/
theorem shoutingCase_ne_pub (text : String) : Text.shoutingCase text ≠ "pub" := by
  intro same
  have member : 'p' ∈ (Text.shoutingCase text).toList := by
    rw [same]
    decide
  rcases Text.mem_joinWords member with mark | ⟨part, listed, own⟩
  · simp at mark
  · obtain ⟨word, inside, rfl⟩ := List.mem_map.mp listed
    obtain ⟨c, letter, shouted⟩ := List.mem_map.mp own
    have plain := (Text.words_are_words text word inside).2 c letter
    exact Text.ascii_forall (P := fun c => c.toUpper ≠ 'p') (by decide)
      (Text.ascii_of_alphanum plain) shouted

theorem kindConstant_eq_ok {kind : String} {word : Code} (known : kindConstant kind = .ok word) :
    word = [.word (Text.shoutingCase kind)] := by
  simp only [kindConstant, plainIdent, bind_eq_ok, pure_eq_ok] at known
  obtain ⟨text, lexical, rfl⟩ := known
  rw [lexicalIdent_eq_ok lexical]

theorem namesBehind_const {name : String} (other : name ≠ "pub") (rest : Code) :
    namesBehind ["pub", "const"]
        (.word "pub" :: .word "const" :: .word name :: .mark ':' :: rest) =
      name :: namesBehind ["pub", "const"] rest := by
  simp [namesBehind, nameBehind?, other]

theorem namesBehind_constant {kind : String} {value : Nat} {text : Code}
    (known : descriptorConstant kind value = .ok text) (rest : Code) :
    namesBehind ["pub", "const"] (text ++ rest) =
      Text.shoutingCase kind :: namesBehind ["pub", "const"] rest := by
  simp only [descriptorConstant, bind_eq_ok, pure_eq_ok] at known
  obtain ⟨word, known, rfl⟩ := known
  have opening : code "pub const" = [.word "pub", .word "const"] := rfl
  have typed : code ": PktDescriptor = PktDescriptor" =
      .mark ':' :: code "PktDescriptor = PktDescriptor" := by
    decide
  have flag : Quiet (if lsbFlag ≤ value then code "| PktDescriptor::FLAG_LSB_BITMASK" else []) := by
    split <;> decide
  have defined : Quiet (code "PktDescriptor = PktDescriptor" ++ parens (
      hexNumber (clearFlag value) ++
        if lsbFlag ≤ value then code "| PktDescriptor::FLAG_LSB_BITMASK" else []) ++ code ";") :=
    ((by decide : Quiet (code "PktDescriptor = PktDescriptor")).append
      ((quiet_hexNumber _).append flag).parens).append (by decide)
  have behind : namesBehind ["pub", "const"] (_ ++ rest) = namesBehind ["pub", "const"] rest :=
    namesBehind_append defined.silent
  rw [kindConstant_eq_ok known, opening, typed]
  simp only [List.append_assoc, List.cons_append, List.nil_append] at behind ⊢
  rw [namesBehind_append (quiet_docComment _).silent, namesBehind_const (shoutingCase_ne_pub kind),
    behind]

theorem namesBehind_constants {entries : List (String × Nat)} {constants : List Code}
    (run : entries.mapM (fun entry => descriptorConstant entry.1 entry.2) = .ok constants)
    (rest : Code) : namesBehind ["pub", "const"] (constants.flatten ++ rest) =
      (entries.map fun entry => Text.shoutingCase entry.1) ++ namesBehind ["pub", "const"] rest := by
  have pairs := forall₂_of_mapM run
  clear run
  induction pairs with
  | nil => rfl
  | cons first others ih =>
    rw [List.flatten_cons, List.append_assoc, namesBehind_constant first, ih]
    rfl

theorem silent_descriptorNames {entries : List (String × Nat)} {names : List Code}
    (run : entries.mapM (fun entry => descriptorName entry.1) = .ok names) :
    .word "pub" ∉ names.flatten := by
  have pairs := forall₂_of_mapM run
  clear run
  induction pairs with
  | nil => simp
  | @cons entry text _ _ first others ih =>
    simp only [descriptorName, bind_eq_ok, pure_eq_ok] at first
    obtain ⟨word, known, rfl⟩ := first
    have path : .word "pub" ∉ code "PktDescriptor::" := by decide
    have arrow : .word "pub" ∉ code "=> Some" := by decide
    have comma : .word "pub" ∉ code "," := by decide
    rw [List.flatten_cons, kindConstant_eq_ok known, List.mem_append, not_or]
    refine ⟨?_, ih⟩
    simp [path, arrow, comma, parens, (shoutingCase_ne_pub entry.1).symm]

def descriptorOpening : Code :=
  docComment " Packet descriptor code." ++ docComment "" ++
    docComment " Descriptors read from 8-bit fields hold the code in the upper" ++
    docComment " byte and are marked with [`PktDescriptor::FLAG_LSB_BITMASK`]." ++
    code "#[repr(transparent)]" ++
    code "#[derive(Debug, Default, Clone, Copy, PartialEq, Eq, Hash, PartialOrd, Ord)]" ++
    code "pub struct PktDescriptor(pub u32);" ++ code "impl PktDescriptor" ++ [.mark '\x7b'] ++
    code "pub const FLAG_LSB_BITMASK: u32 = 0x8000_0000;"

def descriptorMethods : Code :=
  docComment " Wire code of the descriptor, flag cleared." ++
    code "pub const fn code(self) -> u16" ++ braces (code "(self.0 & 0xffff) as u16") ++
    docComment " Whether the descriptor is carried by an 8-bit field." ++
    code "pub const fn is_lsb(self) -> bool" ++
    braces (code "self.0 & Self::FLAG_LSB_BITMASK != 0") ++
    docComment " Descriptor kind name, `None` for unregistered codes." ++
    code "pub fn name(self) -> Option<&'static str>"

theorem constantNames_descriptorDecl {model : Model} {decl : Code}
    (generated : descriptorDecl model = .ok decl) :
    constantNames decl = "FLAG_LSB_BITMASK" ::
      model.descriptors.entries.map fun entry => Text.shoutingCase entry.1 := by
  simp only [descriptorDecl, bind_eq_ok, pure_eq_ok] at generated
  obtain ⟨constants, declared, names, named, generated⟩ := generated
  have opening : Settled ["const"] descriptorOpening ∧
      namesBehind ["pub", "const"] descriptorOpening = ["FLAG_LSB_BITMASK"] := by
    decide +kernel
  have methods : Settled ["const"] descriptorMethods ∧
      namesBehind ["pub", "const"] descriptorMethods = [] := by
    decide +kernel
  have body : .word "pub" ∉ (if model.descriptors.entries.isEmpty = true then
      code "let _ = self; None"
      else code "match self" ++ braces (names.flatten ++ code "_ => None,")) := by
    have fixed : .word "pub" ∉ code "let _ = self; None" ∧ .word "pub" ∉ code "match self" ∧
        .word "pub" ∉ code "_ => None," := by
      decide
    split
    · exact fixed.1
    · simp [braces, fixed, silent_descriptorNames named]
  generalize (if model.descriptors.entries.isEmpty = true then code "let _ = self; None"
    else code "match self" ++ braces (names.flatten ++ code "_ => None,")) = text
    at body generated
  have parts : decl = descriptorOpening ++ (constants.flatten ++ (descriptorMethods ++
      (braces text ++ [.mark '\x7d']))) := by
    rw [← generated, descriptorOpening, descriptorMethods]
    simp only [braces, List.append_assoc, List.cons_append, List.nil_append]
  have closing : namesBehind ["pub", "const"] (braces text ++ [.mark '\x7d'] ++ []) = [] := by
    apply namesBehind_append
    simp [braces, body]
  rw [List.append_nil] at closing
  rw [constantNames, parts, namesBehind_append_of_end _ opening.1, opening.2,
    namesBehind_constants declared, namesBehind_append_of_end _ methods.1, methods.2, closing]
  simp

end PacketSpec.Codegen
