import PacketSpec.Document.Problem
import PacketSpec.Size

/-!
Reading JSON text from the front. A problem is raised at the byte that the cursor has reached, or
one further when the character there is looked at and refused. A problem of meaning, such as a
missing field, gets its position from the value around it.
-/
namespace PacketSpec.Document.Reading

structure Cursor where
  rest : List Char
  index : Nat

structure Failure where
  cause : Cause
  position : Option Nat

abbrev Read := ExceptT Failure (StateM Cursor)

def failHere {α : Type} (cause : Cause) : Read α := do
  throw { cause, position := some (← get).index }

def failAtNext {α : Type} (cause : Cause) : Read α := do
  let cursor ← get
  throw { cause, position := some (cursor.index + if cursor.rest.isEmpty then 0 else 1) }

/-- The position follows from the value around. -/
def failInside {α : Type} (cause : Cause) : Read α := throw { cause, position := none }

def peek : Read (Option Char) := return (← get).rest.head?

def advance : Read Unit := modify fun cursor =>
  match cursor.rest with
  | [] => cursor
  | c :: rest => { rest, index := cursor.index + c.utf8Size }

def isSpace (c : Char) : Bool := c == ' ' || c == '\n' || c == '\t' || c == '\r'

def skipSpace : Read Unit := modify fun cursor =>
  let spaces := cursor.rest.takeWhile isSpace
  { rest := cursor.rest.dropWhile isSpace, index := cursor.index + spaces.length }

def peekSignificant : Read (Option Char) := do skipSpace; peek

/-- Takes one character of a literal or number; one that is not wanted counts as one byte. -/
def takeChar (atEnd : Cause) : Read Char := do
  match ← peek with
  | none => failHere atEnd
  | some c => advance; return c

/-- Raises a problem after the first byte of the character just taken. -/
def failAfter {α : Type} (c : Char) (cause : Cause) : Read α := do
  throw { cause, position := some ((← get).index + 1 - c.utf8Size) }

def literal (letters : List Char) : Read Unit :=
  letters.forM fun expected => do
    let c ← takeChar .eofInValue
    if c != expected then failAfter c .expectedLiteral

/-- The four digits of an escape, and the text after them. -/
def hexEscape (index : Nat) : List Char → Except Failure (Nat × List Char)
  | a :: b :: c :: d :: rest =>
    if [a, b, c, d].all Text.isHexDigit then .ok (Text.ofDigits 16 [a, b, c, d], rest)
    else .error ⟨.invalidEscape, some (index + 4)⟩
  | text =>
    if byteCount text < 4 then .error ⟨.eofInString, some (index + byteCount text)⟩
    else .error ⟨.invalidEscape, some (index + 4)⟩

def simpleEscape? : Char → Option Char
  | '"' => some '"'
  | '\\' => some '\\'
  | '/' => some '/'
  | 'b' => some '\x08'
  | 'f' => some '\x0c'
  | 'n' => some '\n'
  | 'r' => some '\r'
  | 't' => some '\t'
  | _ => none

def isHighSurrogate (n : Nat) : Bool := 0xd800 ≤ n && n ≤ 0xdbff

def isLowSurrogate (n : Nat) : Bool := 0xdc00 ≤ n && n ≤ 0xdfff

/-- An escape after its backslash: the character and the text after it. With `paired` a surrogate
has to come with its partner, without it the character does not matter. -/
def escape (paired : Bool) (index : Nat) : List Char → Except Failure (Char × List Char × Nat)
  | [] => .error ⟨.eofInString, some index⟩
  | 'u' :: text => do
    let (n, text) ← hexEscape (index + 1) text
    let index := index + 5
    if !paired then return ('?', text, index)
    else if isLowSurrogate n then throw ⟨.loneSurrogate, some index⟩
    else if !isHighSurrogate n then return (Char.ofNat n, text, index)
    else match text with
      | [] => throw ⟨.eofInString, some index⟩
      | '\\' :: [] => throw ⟨.eofInString, some (index + 1)⟩
      | '\\' :: 'u' :: text =>
        let (low, text) ← hexEscape (index + 2) text
        let index := index + 6
        if isLowSurrogate low then
          return (Char.ofNat ((n - 0xd800) * 0x400 + (low - 0xdc00) + 0x10000), text, index)
        else throw ⟨.loneSurrogate, some index⟩
      | '\\' :: _ => throw ⟨.brokenSurrogate, some (index + 2)⟩
      | _ => throw ⟨.brokenSurrogate, some (index + 1)⟩
  | c :: text =>
    match simpleEscape? c with
    | some e => .ok (e, text, index + 1)
    | none => .error ⟨.invalidEscape, some (index + 1)⟩

/-- The characters up to the closing quote; `fuel` bounds their number. -/
def stringBody (paired : Bool) :
    (fuel : Nat) → (index : Nat) → List Char → Except Failure (List Char × Cursor)
  | 0, index, _ => .error ⟨.eofInString, some index⟩
  | _ + 1, index, [] => .error ⟨.eofInString, some index⟩
  | fuel + 1, index, c :: text =>
    if c == '"' then .ok ([], { rest := text, index := index + 1 })
    else if c == '\\' then do
      let (e, text, index) ← escape paired (index + 1) text
      let (cs, cursor) ← stringBody paired fuel index text
      return (e :: cs, cursor)
    else if c.toNat < 0x20 then
      .error ⟨.controlCharacter, some (if paired then index + 1 else index)⟩
    else do
      let (cs, cursor) ← stringBody paired fuel (index + c.utf8Size) text
      return (c :: cs, cursor)

def finishString (paired : Bool) : Read String := do
  let cursor ← get
  match stringBody paired (cursor.rest.length + 1) cursor.index cursor.rest with
  | .ok (cs, cursor) => set cursor; return String.ofList cs
  | .error failure => throw failure

def takeDigits : Read (List Char) := do
  let digits := (← get).rest.takeWhile Char.isDigit
  modify fun cursor =>
    { rest := cursor.rest.dropWhile Char.isDigit, index := cursor.index + digits.length }
  return digits

/-- As many digits as fit into 64 bits are added to a number; returns how many were left over. -/
def accumulate (n : Nat) : List Char → Nat × Nat
  | [] => (n, 0)
  | c :: rest =>
    let next := n * 10 + Text.digitValue c
    if next < Size.bound then accumulate next rest else (n, rest.length + 1)

/-- The value of `significand * 10 ^ exponent`, scaled by one power of ten at a time. -/
def scale : (fuel : Nat) → Float → Int → Option Float
  | 0, x, _ => some x
  | fuel + 1, x, exponent =>
    if exponent.natAbs ≤ 308 then
      let power := Float.ofScientific 1 false exponent.natAbs
      if 0 ≤ exponent then
        if (x * power).isInf then none else some (x * power)
      else some (x / power)
    else if x == 0 then some x
    else if 0 ≤ exponent then none
    else scale fuel (x / Float.ofScientific 1 false 308) (exponent + 308)

def float (positive : Bool) (significand : Nat) (exponent : Int) : Read Found := do
  match scale 20 (Float.ofNat significand) exponent with
  | some x => return .float (if positive then x else -x)
  | none => failHere .numberOutOfRange

def isExponentMark (c : Option Char) : Bool := c == some 'e' || c == some 'E'

/-- The sign and the first digit of an exponent; the mark itself is still to be taken. -/
def exponentStart : Read (Bool × Char) := do
  advance
  let sign ← peek
  if sign == some '+' || sign == some '-' then advance
  let c ← takeChar .eofInValue
  if c.isDigit then return (sign != some '-', c) else failAfter c .invalidNumber

def exponent (positive : Bool) (significand : Nat) (start : Int) : Read Found := do
  let (positiveExponent, c) ← exponentStart
  let cursor ← get
  let digits ← takeDigits
  let inRange := (List.range (digits.length + 1)).takeWhile fun k =>
    Text.ofDigits 10 (c :: digits.take k) < 1 <<< 31
  if inRange.length ≤ digits.length then
    if significand != 0 && positiveExponent then
      throw ⟨.numberOutOfRange, some (cursor.index + inRange.length)⟩
    else return .float (if positive then 0.0 else -0.0)
  let n : Int := Text.ofDigits 10 (c :: digits)
  float positive significand (if positiveExponent then start + n else start - n)

def decimalPart (positive : Bool) (significand : Nat) (exponentBefore : Nat) : Read Found := do
  advance
  let digits ← takeDigits
  if digits.isEmpty then
    failAtNext (if (← get).rest.isEmpty then .eofInValue else .invalidNumber)
  let (significand, left) := accumulate significand digits
  let start : Int := exponentBefore - ((digits.length - left : Nat) : Int)
  if isExponentMark (← peek) then exponent positive significand start
  else float positive significand start

def number (positive : Bool) : Read Found := do
  let c ← takeChar .eofInValue
  if !c.isDigit then failAfter c .invalidNumber
  let digits ← if c == '0' then pure [] else takeDigits
  if c == '0' && ((← peek).map Char.isDigit).getD false then failAtNext .invalidNumber
  let (significand, left) := accumulate (Text.digitValue c) digits
  let next ← peek
  if next == some '.' then decimalPart positive significand left
  else if isExponentMark next then exponent positive significand left
  else if 0 < left then float positive significand left
  else if positive then return .integer significand
  else if significand == 0 || 1 <<< 63 < significand then
    return .float (-(Float.ofNat significand))
  else return .integer (-(significand : Int))

def skipNumber : Read Unit := do
  let c ← takeChar .invalidNumber
  if !c.isDigit then failAfter c .invalidNumber
  if c == '0' then
    if ((← peek).map Char.isDigit).getD false then failAtNext .invalidNumber
  else discard takeDigits
  if (← peek) == some '.' then
    advance
    if (← takeDigits).isEmpty then failAtNext .invalidNumber
  if isExponentMark (← peek) then
    advance
    let sign ← peek
    if sign == some '+' || sign == some '-' then advance
    let c ← takeChar .invalidNumber
    if !c.isDigit then failAfter c .invalidNumber
    discard takeDigits

/-- Raises the problem that the value at the cursor is not of the expected kind. Scalars are read
whole first. -/
def wrongType {α : Type} (expected : String) : Read α := do
  match ← peek with
  | some 'n' => advance; literal "ull".toList; failHere (.invalidType .null expected)
  | some 't' => advance; literal "rue".toList; failHere (.invalidType (.bool true) expected)
  | some 'f' => advance; literal "alse".toList; failHere (.invalidType (.bool false) expected)
  | some '"' =>
    advance
    let s ← finishString true
    failHere (.invalidType (.string s) expected)
  | some '[' => failHere (.invalidType .sequence expected)
  | some '\x7b' => failHere (.invalidType .map expected)
  | some '-' =>
    advance
    let found ← number false
    failHere (.invalidType found expected)
  | some c =>
    if c.isDigit then
      let found ← number true
      failHere (.invalidType found expected)
    else failAtNext .expectedValue
  | none => failAtNext .expectedValue

def string : Read String := do
  match ← peekSignificant with
  | none => failAtNext .eofInValue
  | some '"' => advance; finishString true
  | some _ => wrongType "a string"

def moreElements (first : Bool) : Read Bool := do
  match ← peekSignificant with
  | none => failAtNext .eofInList
  | some ']' => return false
  | some c =>
    if first then return true
    else if c == ',' then
      advance
      match ← peekSignificant with
      | none => failAtNext .eofInValue
      | some ']' => failAtNext .trailingComma
      | some _ => return true
    else failAtNext .expectedListEnd

def moreKeys (first : Bool) : Read Bool := do
  match ← peekSignificant with
  | none => failAtNext .eofInObject
  | some '\x7d' => return false
  | some c =>
    if first then
      if c == '"' then return true else failAtNext .keyNotString
    else if c == ',' then
      advance
      match ← peekSignificant with
      | none => failAtNext .eofInValue
      | some '"' => return true
      | some '\x7d' => failAtNext .trailingComma
      | some _ => failAtNext .keyNotString
    else failAtNext .expectedObjectEnd

def colon : Read Unit := do
  match ← peekSignificant with
  | none => failAtNext .eofInObject
  | some ':' => advance
  | some _ => failAtNext .expectedColon

def endList : Read Unit := do
  match ← peekSignificant with
  | none => failAtNext .eofInList
  | some ']' => advance
  | some ',' =>
    advance
    match ← peekSignificant with
    | some ']' => failAtNext .trailingComma
    | _ => failAtNext .trailingCharacters
  | some _ => failAtNext .trailingCharacters

def endObject : Read Unit := do
  match ← peekSignificant with
  | none => failAtNext .eofInObject
  | some '\x7d' => advance
  | some ',' => failAtNext .trailingComma
  | some _ => failAtNext .trailingCharacters

/-- Reads what stands between brackets. The closing bracket is tried even after a problem, and a
problem without a position gets the one reached then. -/
def enclosed {α : Type} (body : Read α) (close : Read Unit) : Read α := fun cursor =>
  let (result, cursor) := (do advance; body : Read α) cursor
  let (closed, cursor) := close cursor
  match result, closed with
  | .error failure, _ =>
    (.error { failure with position := some (failure.position.getD cursor.index) }, cursor)
  | .ok _, .error failure => (.error failure, cursor)
  | .ok a, .ok () => (.ok a, cursor)

/-- The elements of a list, up to its closing bracket. -/
def elements {α : Type} (element : Read α) : (fuel : Nat) → (first : Bool) → Read (List α)
  | 0, _ => failAtNext .eofInList
  | fuel + 1, first => do
    if ← moreElements first then
      let a ← element
      let rest ← elements element fuel false
      return a :: rest
    else return []

def list {α : Type} (element : Read α) : Read (List α) := do
  match ← peekSignificant with
  | none => failAtNext .eofInValue
  | some '[' => enclosed (do elements element ((← get).rest.length + 1) true) endList
  | some _ => wrongType "a sequence"

/-- The entries of an object, up to its closing bracket: `entry` reads what follows a key. -/
def entries {σ : Type} (entry : String → σ → Read σ) :
    (fuel : Nat) → (first : Bool) → σ → Read σ
  | 0, _, _ => failAtNext .eofInObject
  | fuel + 1, first, state => do
    if ← moreKeys first then
      advance
      let key ← finishString true
      let state ← entry key state
      entries entry fuel false state
    else return state

/-- Reads an object by its keys, or a list as the fields in their order. -/
def record {α : Type} (expected : String) (ofObject ofList : Read α) : Read α := do
  match ← peekSignificant with
  | none => failAtNext .eofInValue
  | some '[' => enclosed ofList endList
  | some '\x7b' => enclosed ofObject endObject
  | some _ => wrongType expected

def map {α : Type} (value : Read α) : Read (List (String × α)) := do
  match ← peekSignificant with
  | none => failAtNext .eofInValue
  | some '\x7b' =>
    let entry (key : String) (found : List (String × α)) : Read (List (String × α)) := do
      colon
      let a ← value
      return found ++ [(key, a)]
    enclosed (do entries entry ((← get).rest.length + 1) true []) endObject
  | some _ => wrongType "a map"

inductive Frame where
  | list
  | object
  deriving DecidableEq

/-- Leaves the frames that close here. Returns the frames in which another value follows, if
there is one. -/
def leaveFrames : (afterValue : Bool) → List Frame → Read (Option (List Frame))
  | _, [] => return none
  | afterValue, frame :: outer => do
    match ← peekSignificant, frame with
    | none, .list => failAtNext .eofInList
    | none, .object => failAtNext .eofInObject
    | some ']', .list => advance; leaveFrames true outer
    | some '\x7d', .object => advance; leaveFrames true outer
    | some c, _ =>
      if !afterValue then return some (frame :: outer)
      else if c == ',' then advance; return some (frame :: outer)
      else failAtNext (if frame = .list then .expectedListEnd else .expectedObjectEnd)

def skipKey : Read Unit := do
  match ← peekSignificant with
  | none => failAtNext .eofInObject
  | some '"' => advance
  | some _ => failAtNext .keyNotString
  discard (finishString false)
  colon

/-- Passes over a value and what follows it in the frames around it. -/
def skipValues : (fuel : Nat) → List Frame → Read Unit
  | 0, _ => failAtNext .eofInValue
  | fuel + 1, frames => do
    let opened ← match ← peekSignificant with
      | none => failAtNext .eofInValue
      | some 'n' => advance; literal "ull".toList; pure none
      | some 't' => advance; literal "rue".toList; pure none
      | some 'f' => advance; literal "alse".toList; pure none
      | some '-' => advance; skipNumber; pure none
      | some '"' => advance; discard (finishString false); pure none
      | some '[' => advance; pure (some Frame.list)
      | some '\x7b' => advance; pure (some Frame.object)
      | some c => if c.isDigit then skipNumber; pure none else failAtNext .expectedValue
    match ← leaveFrames opened.isNone (opened.toList ++ frames) with
    | none => return ()
    | some frames =>
      if frames.head? == some .object then skipKey
      skipValues fuel frames

def skipValue : Read Unit := do skipValues ((← get).rest.length + 1) []

def whole {α : Type} (value : Read α) (text : String) : Except Problem α :=
  let body : Read α := do
    let a ← value
    if (← peekSignificant).isSome then failAtNext .trailingCharacters
    return a
  match (body { rest := text.toList, index := 0 }).1 with
  | .ok a => .ok a
  | .error failure => .error (Problem.of text failure.cause (failure.position.getD 0))

end PacketSpec.Document.Reading
