/-!
Names in snake case, shouting snake case and upper camel case. A name is first split into words:
at every character that is not an ASCII letter or digit, between a lower case letter and an upper
case one, and before the last upper case letter of a run that a lower case letter follows.
-/
namespace PacketSpec.Text

inductive CaseMode where
  | boundary
  | lower
  | upper
  deriving DecidableEq, Repr

/-- The mode after `c`; a digit keeps the mode before it. -/
def CaseMode.step (mode : CaseMode) (c : Char) : CaseMode :=
  if c.isLower then .lower else if c.isUpper then .upper else mode

/-- Splits a run of letters and digits; `word` holds the word read so far. -/
def splitRun (mode : CaseMode) (word : List Char) : List Char → List (List Char)
  | [] => if word.isEmpty then [] else [word]
  | [c] => [word ++ [c]]
  | c :: d :: rest =>
    if mode.step c = .lower ∧ d.isUpper then
      (word ++ [c]) :: splitRun .boundary [] (d :: rest)
    else if mode = .upper ∧ c.isUpper ∧ d.isLower then
      word :: splitRun .boundary [c] (d :: rest)
    else splitRun (mode.step c) (word ++ [c]) (d :: rest)

/-- The maximal runs of ASCII letters and digits; `run` holds the one read so far. -/
def splitRuns (run : List Char) : List Char → List (List Char)
  | [] => if run.isEmpty then [] else [run]
  | c :: rest =>
    if c.isAlphanum then splitRuns (run ++ [c]) rest
    else if run.isEmpty then splitRuns [] rest
    else run :: splitRuns [] rest

def words (text : String) : List (List Char) :=
  (splitRuns [] text.toList).flatMap (splitRun .boundary [])

def capitalize : List Char → List Char
  | [] => []
  | c :: rest => c.toUpper :: rest.map Char.toLower

def joinWords (ws : List (List Char)) : String := String.ofList (['_'].intercalate ws)

def snakeCase (text : String) : String := joinWords ((words text).map (·.map Char.toLower))

def shoutingCase (text : String) : String := joinWords ((words text).map (·.map Char.toUpper))

def camelCase (text : String) : String := String.ofList ((words text).map capitalize).flatten

/-- A name of ASCII letters, digits and underscores that does not start with a digit. -/
def isIdentifier (text : String) : Bool :=
  match text.toList with
  | [] => false
  | c :: rest => (c.isAlpha || c == '_') && (c :: rest).all fun d => d.isAlphanum || d == '_'

end PacketSpec.Text
