import PacketSpec.Codegen.Decoder
import PacketSpec.Codegen.Encoder
import PacketSpec.Proofs.Codegen.Declared

/-! The variables that generated code binds, the held fields that it reads and the entries that it
lists, found again in its tokens. Code that is put together of parts has the names of its parts. -/
namespace PacketSpec.Codegen

/-- The generator's own variables start with two underscores. -/
def isOwn (name : String) : Bool := Text.startsWith name "__"

def boundName? : Code → Option String
  | .word first :: .word second :: _ => some (if first = "mut" then second else first)
  | .word name :: _ => some name
  | _ => none

/-- The variables that are bound outside of braces, counted from `depth` open ones. The generator's
own ones are left out. -/
def boundNames : (depth : Nat) → Code → List String
  | _, [] => []
  | depth, .word text :: rest =>
    if text = "let" ∧ depth = 0 then
      ((boundName? rest).filter fun name => !isOwn name).toList ++ boundNames depth rest
    else boundNames depth rest
  | depth, .mark c :: rest =>
    if c = '\x7b' then boundNames (depth + 1) rest
    else if c = '\x7d' then boundNames (depth - 1) rest
    else boundNames depth rest
  | depth, .quoted _ :: rest => boundNames depth rest

def behindBrace (text : Code) : Code := (text.dropWhile (· != .mark '\x7b')).drop 1

/-- The variables that the only method of an implementation binds. -/
def localNames (impl : Code) : List String := boundNames 0 (behindBrace (behindBrace impl))

def readName? : Code → Option String
  | .word text :: .mark c :: .word name :: _ => if text = "self" ∧ c = '.' then some name else none
  | _ => none

def readNames : Code → List String
  | [] => []
  | token :: rest => (readName? (token :: rest)).toList ++ readNames rest

def lastScope (text : Code) : Code :=
  (text.reverse.takeWhile (· != .mark '\x7b')).reverse.takeWhile (· != .mark '\x7d')

/-- The first words of the entries between commas; `fresh` tells whether an entry begins. -/
def entryNames : (fresh : Bool) → Code → List String
  | _, [] => []
  | fresh, .word text :: rest => (if fresh then [text] else []) ++ entryNames false rest
  | _, .mark c :: rest => entryNames (c == ',') rest
  | _, .quoted _ :: rest => entryNames false rest

def initialNames (text : Code) : List String := entryNames true (lastScope text)

/-- Whether a token neither binds a variable nor reads a field nor opens or closes a block. -/
def Token.isInert : Token → Bool
  | .word text => text != "let" && text != "self"
  | .mark c => c != '\x7b' && c != '\x7d'
  | .quoted _ => true

def Inert (text : Code) : Prop := text.all Token.isInert = true

instance (text : Code) : Decidable (Inert text) := inferInstanceAs (Decidable (_ = true))

theorem Inert.append {one other : Code} (first : Inert one) (second : Inert other) :
    Inert (one ++ other) := by
  rw [Inert, List.all_append, first, second]
  rfl

theorem Inert.parens {text : Code} (inert : Inert text) : Inert (parens text) :=
  ((by decide : Inert [.mark '(']).append inert).append (by decide)

theorem Inert.brackets {text : Code} (inert : Inert text) : Inert (brackets text) :=
  ((by decide : Inert [.mark '[']).append inert).append (by decide)

theorem Inert.mark_ne {text : Code} {c : Char} (inert : Inert text) (member : .mark c ∈ text) :
    c ≠ '\x7b' ∧ c ≠ '\x7d' := by
  have plain := List.all_eq_true.mp inert _ member
  simpa [Token.isInert] using plain

theorem inert_joinWith {parts : List Code} (each : ∀ part ∈ parts, Inert part) :
    Inert (joinWith ',' parts) := by
  unfold joinWith
  induction parts with
  | nil => rfl
  | cons part rest ih =>
    have first := each part (.head _)
    have others := ih fun other member => each other (.tail _ member)
    cases rest with
    | nil => simpa using first
    | cons next rest =>
      rw [List.intercalate_cons_cons]
      exact (first.append (by decide)).append others

theorem inert_word {text : String} (free : text ≠ "let") (other : text ≠ "self") :
    Inert [.word text] := by
  simp [Inert, Token.isInert, free, other]

theorem inert_quoted (value : String) : Inert [.quoted value] := rfl

/-- The start of an error that names a field. -/
theorem inert_origin (packet label : String) :
    Inert (code "packet:" ++ [.quoted packet] ++ code ", field:" ++ [.quoted label]) :=
  (((by decide : Inert (code "packet:")).append (inert_quoted packet)).append (by decide)).append
    (inert_quoted label)

/-- No escaped name is a keyword. -/
theorem escaped_ne {name word : String} (reserved : word ∈ keywords ++ pathKeywords) :
    escaped name ≠ word := by
  unfold escaped
  intro same
  split at same
  · have each : ∀ word ∈ keywords ++ pathKeywords, word.toList[1]? ≠ some '#' := by decide
    apply each word reserved
    rw [← same, String.toList_append]
    rfl
  · next plain =>
    split at same
    · next path =>
      have each : ∀ name ∈ pathKeywords, name ++ "_" ∉ keywords ++ pathKeywords := by decide
      exact each name (by simpa using path) (same ▸ reserved)
    · next free =>
      subst same
      rcases List.mem_append.mp reserved with keyword | path
      · exact plain (by simpa using keyword)
      · exact free (by simpa using path)

theorem inert_escaped (name : String) : Inert [.word (escaped name)] :=
  inert_word (escaped_ne (by decide)) (escaped_ne (by decide))

theorem inert_ident {name : String} {word : Code} (known : ident name = .ok word) : Inert word := by
  rw [ident_eq_ok known]
  exact inert_escaped name

/-- A word that starts with a digit. -/
theorem inert_digit {text : String} (digit : ∀ c ∈ text.toList.head?, c.isDigit = true) :
    Inert [.word text] := by
  apply inert_word
  · rintro rfl
    exact absurd (digit 'l' rfl) (by decide)
  · rintro rfl
    exact absurd (digit 's' rfl) (by decide)

theorem inert_number (n : Nat) : Inert (number n) := by
  apply inert_digit
  intro c first
  have member : c ∈ Nat.toDigits 10 n := by
    rw [← String.toList_ofList (l := Nat.toDigits 10 n)]
    exact List.mem_of_head? first
  exact Nat.isDigit_of_mem_toDigits (by decide) (by decide) member

theorem inert_hexNumber (n : Nat) : Inert (hexNumber n) := by
  apply inert_digit
  rw [Text.hex, String.toList_ofList]
  simp

theorem inert_mask (bits : Nat) : Inert (mask bits) := by
  apply inert_digit
  rw [maskText, String.toList_ofList]
  simp

theorem inert_integer {width : Nat} {signed : Bool} {word : Code}
    (known : integer width signed = .ok word) : Inert word := by
  simp only [integer, bind_eq_ok, pure_eq_ok] at known
  obtain ⟨name, named, rfl⟩ := known
  have each : ∀ name ∈ integerNames, Inert [.word name] := by decide
  exact each name (mem_integerNames named)

theorem inert_getInteger {width : Nat} {signed : Bool} {text : Code}
    (known : getInteger width signed = .ok text) : Inert text := by
  simp only [getInteger, bind_eq_ok, pure_eq_ok] at known
  obtain ⟨name, named, rfl⟩ := known
  have each : ∀ name ∈ integerNames, Inert (code s!"__r.get_{name}()") := by decide
  exact each name (mem_integerNames named)

theorem inert_byteLength {count : Code} (inert : Inert count) (size : Nat) :
    Inert (byteLength count size) := by
  unfold byteLength
  split
  · exact inert
  · exact (inert.append (by decide)).append (inert_number size)

/-- The code closes the braces that it opens and binds the names outside of them. -/
def Binds (text : Code) (names : List String) : Prop :=
  ∀ depth rest, boundNames depth (text ++ rest) =
    (if depth = 0 then names else []) ++ boundNames depth rest

theorem Binds.append {one other : Code} {names more : List String} (first : Binds one names)
    (second : Binds other more) : Binds (one ++ other) (names ++ more) := by
  intro depth rest
  rw [List.append_assoc, first, second]
  by_cases outside : depth = 0 <;> simp [outside]

theorem binds_nil : Binds [] [] := by
  intro depth rest
  simp

theorem binds_inert {text : Code} (inert : Inert text) : Binds text [] := by
  induction text with
  | nil => exact binds_nil
  | cons token text ih =>
    obtain ⟨first, others⟩ : token.isInert = true ∧ Inert text := by simpa [Inert] using inert
    intro depth rest
    have later := ih others depth rest
    cases token with
    | word text =>
      have other : text ≠ "let" := by rintro rfl; simp [Token.isInert] at first
      rwa [List.cons_append, boundNames, if_neg (by simp [other])]
    | mark c =>
      obtain ⟨opens, closes⟩ : c ≠ '\x7b' ∧ c ≠ '\x7d' := by simpa [Token.isInert] using first
      rwa [List.cons_append, boundNames, if_neg opens, if_neg closes]
    | quoted value => exact later

theorem Binds.append_inert {one other : Code} {names : List String} (first : Binds one names)
    (inert : Inert other) : Binds (one ++ other) names := by
  simpa using first.append (binds_inert inert)

theorem Inert.append_binds {one other : Code} {names : List String} (inert : Inert one)
    (second : Binds other names) : Binds (one ++ other) names := (binds_inert inert).append second

/-- What is bound in a block is not seen outside. -/
theorem Binds.braces {text : Code} {names : List String} (binds : Binds text names) :
    Binds (braces text) [] := by
  intro depth rest
  rw [Codegen.braces, List.cons_append, List.cons_append, boundNames, if_pos rfl,
    List.append_assoc, binds, if_neg (by omega), List.nil_append, List.singleton_append, boundNames,
    if_neg (by decide), if_pos rfl]
  simp

theorem Binds.parens {text : Code} {names : List String} (binds : Binds text names) :
    Binds (parens text) names :=
  (Inert.append_binds (by decide : Inert [.mark '(']) binds).append_inert (by decide)

theorem binds_mapM {α : Type} {items : List α} {step : α → Except Fault Code} {parts : List Code}
    {names : α → List String}
    (each : ∀ item ∈ items, ∀ part, step item = .ok part → Binds part (names item))
    (run : items.mapM step = .ok parts) : Binds parts.flatten (items.flatMap names) := by
  have pairs := forall₂_of_mapM run
  clear run
  induction pairs with
  | nil => exact binds_nil
  | cons known _ ih =>
    exact (each _ (.head _) _ known).append (ih fun other member => each other (.tail _ member))

def visible (name : String) : List String := if isOwn name then [] else [name]

theorem binds_let {name : String} {c : Char} (free : name ≠ "let") (inert : Inert [.mark c]) :
    Binds [.word "let", .word name, .mark c] (visible name) := by
  obtain ⟨opens, closes⟩ : c ≠ '\x7b' ∧ c ≠ '\x7d' := by simpa [Inert, Token.isInert] using inert
  intro depth rest
  by_cases own : isOwn name = true <;> by_cases outside : depth = 0 <;>
    simp [boundNames, boundName?, visible, Option.filter_some, own, outside, free, opens, closes]

theorem binds_let_mut {name : String} (free : name ≠ "let") :
    Binds [.word "let", .word "mut", .word name] (visible name) := by
  intro depth rest
  by_cases own : isOwn name = true <;> by_cases outside : depth = 0 <;>
    simp [boundNames, boundName?, visible, Option.filter_some, own, outside, free]

theorem binds_binding {name : String} {value : Code} (free : name ≠ "let")
    (binds : Binds value []) :
    Binds (binding [.word name] value) (visible name) := by
  have front : code "let" ++ [.word name] ++ code "=" = [.word "let", .word name, .mark '='] := rfl
  rw [binding, front]
  have bound := (binds_let free (by decide : Inert [.mark '='])).append binds
  simpa using bound.append_inert (by decide : Inert (code ";"))

theorem behindBrace_eq {front rest : Code} (inert : Inert front) :
    behindBrace (front ++ .mark '\x7b' :: rest) = rest := by
  have skipped : ∀ token ∈ front, (token != .mark '\x7b') = true := by
    intro token member
    refine bne_iff_ne.mpr ?_
    rintro rfl
    exact (inert.mark_ne member).1 rfl
  rw [behindBrace, List.dropWhile_append_of_pos skipped]
  rfl

/-- The variables of an implementation are those of the body of its method. -/
theorem localNames_method {front header body : Code} {names : List String} (outer : Inert front)
    (inner : Inert header) (binds : Binds body names) :
    localNames (front ++ braces (header ++ braces body)) = names := by
  have nested : header ++ braces body ++ [.mark '\x7d'] =
      header ++ .mark '\x7b' :: (body ++ [.mark '\x7d', .mark '\x7d']) := by
    simp [braces]
  rw [localNames, braces, List.cons_append, behindBrace_eq outer, nested, behindBrace_eq inner,
    binds, if_pos rfl]
  simp [boundNames]

/-- The code reads fields of `self`: all of the `needed` ones, and none but the `allowed` ones. -/
def Fetches (allowed : List String) (text : Code) (needed : List String) : Prop :=
  ∃ names, (∀ rest, readNames (text ++ rest) = names ++ readNames rest) ∧
    needed ⊆ names ∧ names ⊆ allowed

variable {allowed : List String}

theorem Fetches.mono {text : Code} {needed fewer : List String}
    (fetches : Fetches allowed text needed) (less : fewer ⊆ needed) :
    Fetches allowed text fewer := by
  obtain ⟨names, reads, all, only⟩ := fetches
  exact ⟨names, reads, List.Subset.trans less all, only⟩

/-- The code reads none but the allowed fields. -/
theorem Fetches.within {text : Code} {needed : List String}
    (fetches : Fetches allowed text needed) : Fetches allowed text [] :=
  fetches.mono (List.nil_subset _)

theorem Fetches.readNames {text : Code} {needed : List String}
    (fetches : Fetches allowed text needed) :
    needed ⊆ readNames text ∧ readNames text ⊆ allowed := by
  obtain ⟨names, reads, all, only⟩ := fetches
  have whole := reads []
  rw [List.append_nil, Codegen.readNames, List.append_nil] at whole
  rw [whole]
  exact ⟨all, only⟩

theorem Fetches.append {one other : Code} {needed more : List String}
    (first : Fetches allowed one needed) (second : Fetches allowed other more) :
    Fetches allowed (one ++ other) (needed ++ more) := by
  obtain ⟨names, reads, all, only⟩ := first
  obtain ⟨others, continues, further, bounded⟩ := second
  refine ⟨names ++ others, ?_, List.append_subset.mpr ⟨?_, ?_⟩,
    List.append_subset.mpr ⟨only, bounded⟩⟩
  · intro rest
    rw [List.append_assoc, reads, continues, List.append_assoc]
  · exact List.Subset.trans all (List.subset_append_left _ _)
  · exact List.Subset.trans further (List.subset_append_right _ _)

theorem fetches_silent {text : Code} (silent : .word "self" ∉ text) : Fetches allowed text [] := by
  refine ⟨[], ?_, List.Subset.refl _, List.nil_subset _⟩
  intro rest
  induction text with
  | nil => rfl
  | cons token text ih =>
    have nothing : readName? (token :: (text ++ rest)) = none := by
      unfold readName?
      split
      · next same =>
        obtain ⟨rfl, -⟩ := List.cons.inj same
        refine if_neg ?_
        rintro ⟨rfl, -⟩
        exact silent (.head _)
      · rfl
    rw [List.cons_append, readNames, nothing]
    exact ih fun member => silent (.tail _ member)

theorem fetches_inert {text : Code} (inert : Inert text) : Fetches allowed text [] := by
  apply fetches_silent
  intro member
  have first := List.all_eq_true.mp inert _ member
  simp [Token.isInert] at first

theorem Fetches.append_inert {one other : Code} {needed : List String}
    (first : Fetches allowed one needed) (inert : Inert other) :
    Fetches allowed (one ++ other) needed := by
  simpa using first.append (fetches_inert inert)

theorem Inert.append_fetches {one other : Code} {needed : List String} (inert : Inert one)
    (second : Fetches allowed other needed) : Fetches allowed (one ++ other) needed :=
  (fetches_inert inert).append second

theorem Fetches.braces {text : Code} {needed : List String}
    (fetches : Fetches allowed text needed) : Fetches allowed (braces text) needed := by
  have opens : Fetches allowed [.mark '\x7b'] [] := fetches_silent (by simp)
  have closes : Fetches allowed [.mark '\x7d'] [] := fetches_silent (by simp)
  have around := (opens.append fetches).append closes
  rwa [List.append_nil] at around

theorem Fetches.parens {text : Code} {needed : List String}
    (fetches : Fetches allowed text needed) : Fetches allowed (parens text) needed :=
  (Inert.append_fetches (by decide : Inert [.mark '(']) fetches).append_inert (by decide)

/-- A mention of `self` that reads no field. -/
theorem fetches_self {c : Char} (other : c ≠ '.') :
    Fetches allowed [.word "self", .mark c] [] := by
  refine ⟨[], ?_, List.Subset.refl _, List.nil_subset _⟩
  intro rest
  cases rest with
  | nil => simp [readNames, readName?]
  | cons token rest => cases token <;> simp [readNames, readName?, other]

theorem fetches_held {name : String} (other : name ≠ "self") (member : name ∈ allowed) :
    Fetches allowed (code "self." ++ [.word name]) [name] := by
  have held : code "self." = [.word "self", .mark '.'] := rfl
  refine ⟨[name], ?_, List.Subset.refl _, by simpa using member⟩
  intro rest
  rw [held]
  rcases rest with - | ⟨next, - | ⟨last, rest⟩⟩
  · simp [readNames, readName?]
  · cases next <;> simp [readNames, readName?]
  · cases next <;> cases last <;> simp [readNames, readName?, other]

theorem fetches_flatMap {α : Type} {items : List α} {text : α → Code} {needed : α → List String}
    (each : ∀ item ∈ items, Fetches allowed (text item) (needed item)) :
    Fetches allowed (items.flatMap text) (items.flatMap needed) := by
  induction items with
  | nil => exact fetches_silent (by simp)
  | cons item rest ih =>
    exact (each item (.head _)).append (ih fun other member => each other (.tail _ member))

theorem fetches_joinWith {α : Type} {items : List α} {text : α → Code} {needed : α → List String}
    {c : Char} (each : ∀ item ∈ items, Fetches allowed (text item) (needed item)) :
    Fetches allowed (joinWith c (items.map text)) (items.flatMap needed) := by
  unfold joinWith
  induction items with
  | nil => exact fetches_silent (by simp)
  | cons item rest ih =>
    have first := each item (.head _)
    have others := ih fun other member => each other (.tail _ member)
    cases rest with
    | nil => simpa using first
    | cons next rest =>
      rw [List.map_cons, List.map_cons, List.intercalate_cons_cons]
      have separated := first.append (fetches_silent (by simp : .word "self" ∉ [Token.mark c]))
      rw [List.append_nil] at separated
      exact separated.append others

theorem lastScope_eq {front inner back : Code} (single : .mark '\x7b' ∉ inner ++ back)
    (unclosed : .mark '\x7d' ∉ inner) : lastScope (front ++ braces inner ++ back) = inner := by
  have backwards : (front ++ braces inner ++ back).reverse =
      (inner ++ .mark '\x7d' :: back).reverse ++ .mark '\x7b' :: front.reverse := by
    simp [braces]
  have last : ((inner ++ .mark '\x7d' :: back).reverse ++ .mark '\x7b' :: front.reverse).takeWhile
      (· != .mark '\x7b') = (inner ++ .mark '\x7d' :: back).reverse := by
    rw [List.takeWhile_append_of_pos]
    · simp
    · intro token member
      rw [List.mem_reverse, List.mem_append, List.mem_cons] at member
      rw [List.mem_append, not_or] at single
      refine bne_iff_ne.mpr ?_
      rintro rfl
      rcases member with own | other | behind
      · exact single.1 own
      · cases other
      · exact single.2 behind
  rw [lastScope, backwards, last, List.reverse_reverse, List.takeWhile_append_of_pos]
  · simp
  · intro token member
    exact bne_iff_ne.mpr fun same => unclosed (same ▸ member)

theorem entryNames_joinWith (names : List String) :
    entryNames true (joinWith ',' (names.map fun name => [.word name])) = names := by
  unfold joinWith
  induction names with
  | nil => rfl
  | cons name rest ih =>
    cases rest with
    | nil => simp [entryNames]
    | cons next rest =>
      rw [List.map_cons, List.map_cons, List.intercalate_cons_cons]
      simpa [entryNames] using ih

/-- The next entry begins behind the comma. -/
theorem entryNames_skip {value rest : Code} (whole : .mark ',' ∉ value) :
    entryNames false (value ++ .mark ',' :: rest) = entryNames true rest := by
  induction value with
  | nil => simp [entryNames]
  | cons token value ih =>
    have later := ih fun member => whole (.tail _ member)
    cases token with
    | word text => simpa [entryNames] using later
    | mark c =>
      have other : (c == ',') = false := by
        rw [beq_eq_false_iff_ne]
        rintro rfl
        exact whole (.head _)
      rwa [List.cons_append, entryNames, other]
    | quoted value => exact later

end PacketSpec.Codegen
