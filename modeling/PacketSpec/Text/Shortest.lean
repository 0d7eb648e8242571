import PacketSpec.Text.Basic

/-!
The shortest decimal notation of a double precision number: of all decimals that round to the
number, one with the fewest digits, and of those the nearest.
-/
namespace PacketSpec.Text

/-- A finite positive double is `mantissa * 2 ^ exponent`. -/
structure Binary where
  mantissa : Nat
  exponent : Int
  /-- The gap to the next smaller double is half the gap to the next larger one. -/
  lowestOfBinade : Bool

def Binary.ofBits (bits : Nat) : Binary :=
  let biased : Nat := bits >>> 52 % 1 <<< 11
  let fraction : Nat := bits % 1 <<< 52
  if biased = 0 then ⟨fraction, -1074, false⟩
  else ⟨1 <<< 52 + fraction, (biased : Int) - 1075, fraction = 0 ∧ 1 < biased⟩

/-- The number `digits * 10 ^ exponent`. -/
structure Decimal where
  digits : Nat
  exponent : Int

/-- The value and the two ends of the interval of reals that round to it, over one denominator. -/
structure Interval where
  low : Nat
  value : Nat
  high : Nat
  denominator : Nat
  closed : Bool

def Binary.interval (b : Binary) : Interval :=
  let up := 1 <<< (b.exponent - 2).toNat
  let down := 1 <<< (2 - b.exponent).toNat
  { low := (4 * b.mantissa - (if b.lowestOfBinade then 1 else 2)) * up
    value := 4 * b.mantissa * up
    high := (4 * b.mantissa + 2) * up
    denominator := down
    closed := b.mantissa % 2 == 0 }

/-- The decimal of exponent `e` nearest to the value, if it lies in the interval. -/
def Interval.onGrid? (i : Interval) (e : Int) : Option Decimal :=
  let unit := i.denominator * Nat.pow 10 e.toNat
  let scale := Nat.pow 10 (-e).toNat
  let below := i.value * scale / unit
  let holds (n : Nat) : Bool :=
    let x := n * unit
    if i.closed then i.low * scale ≤ x && x ≤ i.high * scale
    else i.low * scale < x && x < i.high * scale
  let rest := i.value * scale - below * unit
  let nearer := if 2 * rest < unit || (2 * rest == unit && below % 2 == 0) then [below, below + 1]
    else [below + 1, below]
  (nearer.find? fun n => n ≠ 0 && holds n).map fun n => ⟨n, e⟩

def stripZeros : Nat → Decimal → Decimal
  | 0, d => d
  | fuel + 1, d =>
    if d.digits % 10 == 0 && d.digits != 0 then stripZeros fuel ⟨d.digits / 10, d.exponent + 1⟩
    else d

/-- Tries grids from the coarsest that can hold a double to the finest. -/
def Binary.shortest (b : Binary) : Decimal :=
  let grids := (List.range 640).map fun (k : Nat) => (310 : Int) - k
  match grids.findSome? b.interval.onGrid? with
  | some d => stripZeros 20 d
  | none => ⟨0, 0⟩

/-- Positional notation for exponents from -5 to 15, scientific notation beyond, in which the
exponent has a sign. -/
def Decimal.text (d : Decimal) : String :=
  let digits := Nat.toDigits 10 d.digits
  let length : Int := digits.length
  let point := length + d.exponent
  if 0 ≤ d.exponent ∧ point ≤ 16 then
    String.ofList (digits ++ List.replicate d.exponent.toNat '0' ++ ['.', '0'])
  else if 0 < point ∧ point ≤ 16 then
    String.ofList (digits.take point.toNat ++ ['.'] ++ digits.drop point.toNat)
  else if -5 < point ∧ point ≤ 0 then
    String.ofList (['0', '.'] ++ List.replicate (-point).toNat '0' ++ digits)
  else
    let exponent := point - 1
    let sign := if exponent < 0 then '-' else '+'
    let mantissa := match digits with
      | [] => []
      | [c] => [c]
      | c :: rest => c :: '.' :: rest
    String.ofList (mantissa ++ ['e', sign] ++ Nat.toDigits 10 exponent.natAbs)

/-- The text of a finite double. -/
def ofFloat (x : Float) : String :=
  let bits := x.toBits.toNat
  let sign := if 1 <<< 63 ≤ bits then "-" else ""
  if bits % 1 <<< 63 = 0 then sign ++ "0.0"
  else sign ++ (Binary.ofBits (bits % 1 <<< 63)).shortest.text

end PacketSpec.Text
