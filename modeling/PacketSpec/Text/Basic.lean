/-!
Plain texts: numbers in decimal and hexadecimal notation, white space at the ends, parts and lines,
and sets of code points.
-/
namespace PacketSpec.Text

def decimal (n : Nat) : String := String.ofList (Nat.toDigits 10 n)

def hexDigits (n : Nat) : List Char := Nat.toDigits 16 n

/-- At least `count` digits, filled up with zeros on the left. -/
def padZeros (count : Nat) (digits : List Char) : List Char :=
  List.replicate (count - digits.length) '0' ++ digits

/-- Writes `0x` and as many lower case digits as the number has. -/
def hex (n : Nat) : String := String.ofList ('0' :: 'x' :: hexDigits n)

/-- Writes `0x` and at least four lower case digits. -/
def hexCode (n : Nat) : String := String.ofList ('0' :: 'x' :: padZeros 4 (hexDigits n))

/-- Writes `0x` and at least four upper case digits, the key of a packet table. -/
def codeKey (n : Nat) : String :=
  String.ofList ('0' :: 'x' :: padZeros 4 ((hexDigits n).map Char.toUpper))

def isHexDigit (c : Char) : Bool :=
  c.isDigit || ('a' ≤ c && c ≤ 'f') || ('A' ≤ c && c ≤ 'F')

def digitValue (c : Char) : Nat :=
  if c.isDigit then c.toNat - '0'.toNat
  else if 'a' ≤ c && c ≤ 'f' then c.toNat - 'a'.toNat + 10
  else c.toNat - 'A'.toNat + 10

/-- The number that digits stand for, most significant first. -/
def ofDigits (base : Nat) (digits : List Char) : Nat :=
  digits.foldl (fun n c => n * base + digitValue c) 0

/-- The Unicode property White_Space. -/
def isWhiteSpace (c : Char) : Bool :=
  let n := c.toNat
  (0x09 ≤ n && n ≤ 0x0d) || n == 0x20 || n == 0x85 || n == 0xa0 || n == 0x1680 ||
    (0x2000 ≤ n && n ≤ 0x200a) || n == 0x2028 || n == 0x2029 || n == 0x202f || n == 0x205f ||
    n == 0x3000

def trimList (text : List Char) : List Char :=
  ((text.dropWhile isWhiteSpace).reverse.dropWhile isWhiteSpace).reverse

def trim (text : String) : String := String.ofList (trimList text.toList)

/-- Whether `part` stands somewhere in `text`. -/
def isPartOf (part : List Char) : List Char → Bool
  | [] => part.isEmpty
  | c :: rest => part.isPrefixOf (c :: rest) || isPartOf part rest

def startsWith (text start : String) : Bool := start.toList.isPrefixOf text.toList

def endsWith (text ending : String) : Bool := ending.toList.isSuffixOf text.toList

def contains (text part : String) : Bool := isPartOf part.toList text.toList

/-- The text before `ending`, when the text ends so. -/
def dropEnding? (text ending : String) : Option String :=
  if endsWith text ending then
    some (String.ofList (text.toList.take (text.length - ending.length)))
  else none

/-- The parts between separators; there is one more of them than there are separators. -/
def split (separator : Char) : List Char → List (List Char)
  | [] => [[]]
  | c :: rest =>
    if c == separator then [] :: split separator rest
    else match split separator rest with
      | [] => [[c]]
      | part :: parts => (c :: part) :: parts

/-- A line without a carriage return at its end. -/
def dropReturn (line : List Char) : List Char :=
  if line.getLast? == some '\r' then line.dropLast else line

/-- The lines of a text; a line feed at its very end starts no line. -/
def lines (text : String) : List String :=
  let all := split '\n' text.toList
  let kept := if all.getLast? == some [] then all.dropLast else all
  kept.map fun line => String.ofList (dropReturn line)

/-- A set of code points by the points at which membership changes: in ascending order, every other
boundary opens a range and the next one closes it. -/
def inside : (boundaries : List Nat) → (codePoint : Nat) → Bool
  | [], _ => false
  | [start], n => start ≤ n
  | start :: stop :: rest, n => if n < stop then start ≤ n else inside rest n

end PacketSpec.Text
