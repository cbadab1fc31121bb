import ScriptEvents.Text
/-!
Floating-point numbers of 64 bits, held as their bits: a sign, eleven bits of exponent, fifty-two
of fraction. A finite number is exactly `± significand * 2 ^ exponent`. Nothing here rounds except
`ofInt64`, which takes the nearest number and, of two equally near, the one with the even
significand.
-/
namespace ScriptEvents

/-- A double-precision number. Equality is equality of bits; `sameNumber` is the numeric one. -/
structure Binary64 where
  bits : UInt64
  deriving DecidableEq, Repr, Inhabited

namespace Binary64

def isNegative (x : Binary64) : Bool := 0x8000000000000000 ≤ x.bits.toNat

def biasedExponent (x : Binary64) : Nat := x.bits.toNat >>> 52 % 0x800

def fraction (x : Binary64) : Nat := x.bits.toNat % 0x10000000000000

def isFinite (x : Binary64) : Bool := x.biasedExponent != 2047

def isNaN (x : Binary64) : Bool := !x.isFinite && x.fraction != 0

def isZero (x : Binary64) : Bool := x.biasedExponent == 0 && x.fraction == 0

/-- The integer part of the exact value: a leading one unless the number is subnormal. -/
def significand (x : Binary64) : Nat :=
  if x.biasedExponent = 0 then x.fraction else 0x10000000000000 + x.fraction

/-- The power of two that scales the significand, plus 1074. -/
def shift (x : Binary64) : Nat := x.biasedExponent - 1

def natAbs? (x : Binary64) : Option Nat :=
  if !x.isFinite then none
  else if 1074 ≤ x.shift then some (x.significand <<< (x.shift - 1074))
  else
    let unit := 1 <<< (1074 - x.shift)
    if x.significand % unit = 0 then some (x.significand / unit) else none

/-- The exact value, if it is an integer. Both zeros are zero. -/
def toInt? (x : Binary64) : Option Int :=
  x.natAbs?.map fun n : Nat => if x.isNegative then -(n : Int) else n

/-- Numeric equality: the zeros are equal, and no NaN equals anything. -/
def sameNumber (x y : Binary64) : Bool :=
  !x.isNaN && !y.isNaN && (x == y || (x.isZero && y.isZero))

/-- The quotient of `n` by `2 ^ k` to the nearest integer, a half to the even one. -/
def roundShift (n k : Nat) : Nat :=
  let unit := 1 <<< k
  let quotient := n / unit
  let rest := n % unit
  if 2 * rest < unit then quotient
  else if unit < 2 * rest then quotient + 1
  else quotient + quotient % 2

/-- The bits of the number nearest to a natural number below `2 ^ 1023`. A significand that rounds
up to the next power of two carries into the exponent. -/
def bitsOfNat (n : Nat) : Nat :=
  if n = 0 then 0
  else
    let e := n.log2
    let significand := if e ≤ 52 then n <<< (52 - e) else roundShift n (e - 52)
    (e + 1022) <<< 52 + significand

def ofInt64 (n : Int64) : Binary64 :=
  ⟨.ofNat (bitsOfNat n.toInt.natAbs + if n < 0 then 0x8000000000000000 else 0)⟩

def clampInt64 (n : Int) : Int64 :=
  .ofInt (max Int64.minValue.toInt (min Int64.maxValue.toInt n))

end Binary64

/-!
Shortest decimals. Every finite non-zero number is the nearest one to each real in a small
interval around it; of the decimals in that interval, `shortest` takes one with the fewest digits,
of those the nearest to the number, and of two equally near the larger in absolute value.
-/

/-- The value `0.d₁d₂… * 10 ^ point`, with no zero at either end of the digits. -/
structure Decimal where
  digits : List Char
  point : Int
  deriving DecidableEq, Repr

namespace Decimal

def scaled (n : Nat) (exponent : Int) : Decimal :=
  let digits := Nat.toDigits 10 n
  ⟨(digits.reverse.dropWhile (· == '0')).reverse, digits.length + exponent⟩

/-- The reals that round to one number, as quarters of a unit over a common denominator. -/
structure Span where
  low : Nat
  value : Nat
  high : Nat
  denominator : Nat
  closed : Bool

/-- The span of a finite non-zero number, by absolute value. Its ends round to the number itself
when the significand is even. Below a power of two the numbers lie twice as close. -/
def Span.of (x : Binary64) : Span :=
  let narrow := x.fraction = 0 && 1 < x.biasedExponent
  let scale := 1 <<< (x.shift - 1076)
  { low := (4 * x.significand - if narrow then 1 else 2) * scale
    value := 4 * x.significand * scale
    high := (4 * x.significand + 2) * scale
    denominator := 1 <<< (1076 - x.shift)
    closed := x.significand % 2 = 0 }

/-- The count of the decimal `n * 10 ^ exponent` nearest to the number, if one on this grid lies in
the span. -/
def Span.onGrid? (s : Span) (exponent : Int) : Option Nat :=
  let finer := Nat.pow 10 (-exponent).toNat
  let unit := s.denominator * Nat.pow 10 exponent.toNat
  let inside (n : Nat) : Bool :=
    if s.closed then s.low * finer ≤ n * unit && n * unit ≤ s.high * finer
    else s.low * finer < n * unit && n * unit < s.high * finer
  let below := s.value * finer / unit
  let rest := s.value * finer % unit
  match inside below, inside (below + 1) with
  | true, true => some (if 2 * rest < unit then below else below + 1)
  | true, false => some below
  | false, true => some (below + 1)
  | false, false => none

def Span.isBelow (s : Span) (exponent : Int) : Bool :=
  s.value * Nat.pow 10 (-exponent).toNat < s.denominator * Nat.pow 10 exponent.toNat

/-- The least power of ten above the number, found upwards from a power below it. -/
def Span.decade (s : Span) : Int :=
  let guess : Int := ((s.value.log2 : Int) - s.denominator.log2) * 30103 / 100000 - 1
  guess + (((List.range 4).find? fun k : Nat => s.isBelow (guess + k)).getD 4 : Nat)

def Span.firstGrid? (s : Span) (decade : Int) : (digits grids : Nat) → Option Decimal
  | _, 0 => none
  | digits, grids + 1 =>
    match s.onGrid? (decade - digits) with
    | some n => some (scaled n (decade - digits))
    | none => s.firstGrid? decade (digits + 1) grids

/-- The shortest decimal that reads back as the finite non-zero number, by absolute value.
Seventeen digits always suffice. -/
def shortest (x : Binary64) : Decimal :=
  let s := Span.of x
  (s.firstGrid? s.decade 1 17).getD ⟨['0'], 1⟩

end Decimal

/-!
Two layouts of a number's shortest decimal. The plain one is always positional and drops an empty
fraction; the marked one keeps `.0` and turns to an exponent below `1e-4` and from `1e16` on.
-/

namespace Decimal

def positional (d : Decimal) : List Char :=
  if d.point ≤ 0 then '0' :: '.' :: List.replicate (-d.point).toNat '0' ++ d.digits
  else if d.digits.length ≤ d.point then
    d.digits ++ List.replicate (d.point - d.digits.length).toNat '0'
  else d.digits.take d.point.toNat ++ '.' :: d.digits.drop d.point.toNat

def scientific (d : Decimal) : List Char :=
  let fraction := d.digits.drop 1
  d.digits.take 1 ++ (if fraction.isEmpty then [] else '.' :: fraction) ++
    'e' :: Text.integerChars (d.point - 1)

end Decimal

namespace Binary64

/-- A number that is not a number has no sign; infinities and zeros have one. -/
def layOut (x : Binary64) (zero : List Char) (nonzero : Decimal → List Char) : String :=
  if x.isNaN then "NaN"
  else
    let magnitude :=
      if !x.isFinite then ['i', 'n', 'f'] else if x.isZero then zero else nonzero (.shortest x)
    .ofList (if x.isNegative then '-' :: magnitude else magnitude)

def plain (x : Binary64) : String :=
  x.layOut ['0'] Decimal.positional

def marked (x : Binary64) : String :=
  x.layOut ['0', '.', '0'] fun d =>
    if d.point < -3 ∨ 16 < d.point then d.scientific
    else if d.digits.length ≤ d.point then d.positional ++ ['.', '0']
    else d.positional

end Binary64

end ScriptEvents
