import PacketSpec.Text.Basic

/-!
Scanners read from the front of a text and fail without consuming anything. A choice takes its
first alternative that succeeds, and an option that has been taken is never given back.
-/
namespace PacketSpec.Cell

abbrev Scan := StateT (List Char) Option

namespace Scan

/-- Space, line feed, carriage return and tab may stand between the elements of a cell. -/
def isBlank (c : Char) : Bool := c == ' ' || c == '\n' || c == '\r' || c == '\t'

def blanks : Scan Unit := fun text => some ((), text.dropWhile isBlank)

def exactly (word : String) : Scan Unit := fun text =>
  if word.toList.isPrefixOf text then some ((), text.drop word.length) else none

/-- Matches a lower case word in any mixture of upper and lower case. -/
def inAnyCase (word : String) : Scan Unit := fun text =>
  if word.toList == (text.take word.length).map Char.toLower then
    some ((), text.drop word.length)
  else none

/-- The longest run of characters of a class, at least one. -/
def many1 (holds : Char → Bool) : Scan (List Char) := fun text =>
  if (text.takeWhile holds).isEmpty then none
  else some (text.takeWhile holds, text.dropWhile holds)

def option {α : Type} (scan : Scan α) : Scan (Option α) :=
  (some <$> scan) <|> pure none

/-- Blanks and then the word. -/
def symbol (word : String) : Scan Unit := do blanks; exactly word

/-- Blanks and then the word, if it is there. -/
def symbol? (word : String) : Scan Unit := do blanks; discard (option (exactly word))

def finish : Scan Unit := do
  blanks
  fun text => if text.isEmpty then some ((), []) else none

end Scan

end PacketSpec.Cell
