import PacketSpec.Wire.Bytes

/-! Bytes as UTF-8 text, strictly or with replacement of what is not UTF-8. -/
namespace PacketSpec.Wire.Utf8

def isContinuation (b : UInt8) : Bool := 0x80 ≤ b && b ≤ 0xbf

/-- Whether `b` may follow the first byte `a` of a sequence of three or four bytes. -/
def isSecond (a b : UInt8) : Bool :=
  if a == 0xe0 then 0xa0 ≤ b && b ≤ 0xbf
  else if a == 0xed then 0x80 ≤ b && b ≤ 0x9f
  else if a == 0xf0 then 0x90 ≤ b && b ≤ 0xbf
  else if a == 0xf4 then 0x80 ≤ b && b ≤ 0x8f
  else 0xe1 ≤ a && a ≤ 0xf3 && isContinuation b

/-- Joins the low bits of a first byte with the continuation bytes after it. -/
def join (first : Nat) (continuations : List UInt8) : Char :=
  Char.ofNat (continuations.foldl (fun n b => n * 64 + b.toNat % 64) first)

/-- The character that starts with the byte `a`, or `none` when the sequence breaks off, and how
many of the bytes after `a` belong to it. -/
def first (a : UInt8) (rest : Bytes) : Option Char × Nat :=
  if a < 0x80 then (some (Char.ofNat a.toNat), 0)
  else match rest with
    | [] => (none, 0)
    | b :: rest =>
      if 0xc2 ≤ a && a ≤ 0xdf then
        if isContinuation b then (some (join (a.toNat % 32) [b]), 1) else (none, 0)
      else if !isSecond a b then (none, 0)
      else match rest with
        | [] => (none, 1)
        | c :: rest =>
          if !isContinuation c then (none, 1)
          else if a < 0xf0 then (some (join (a.toNat % 16) [b, c]), 2)
          else match rest with
            | [] => (none, 2)
            | d :: _ =>
              if !isContinuation d then (none, 2)
              else (some (join (a.toNat % 8) [b, c, d]), 3)

/-- The characters after the next `taken` bytes. -/
def decodeAfter : (taken : Nat) → Bytes → List (Option Char)
  | _, [] => []
  | taken + 1, _ :: rest => decodeAfter taken rest
  | 0, a :: rest => (first a rest).1 :: decodeAfter (first a rest).2 rest

/-- The characters of a text, `none` for each sequence that breaks off. -/
def decode (bytes : Bytes) : List (Option Char) := decodeAfter 0 bytes

def toString? (bytes : Bytes) : Option String := ((decode bytes).mapM id).map String.ofList

/-- The text with a replacement character for every sequence that breaks off. -/
def toStringLossy (bytes : Bytes) : String :=
  String.ofList ((decode bytes).map (·.getD '�'))

def ofString (text : String) : Bytes := text.toUTF8.toList

end PacketSpec.Wire.Utf8
