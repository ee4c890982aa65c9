import ResourceQuery.Number.Binary64

/-!
# Decimal text

The decimal text of a floating-point number: the fewest digits that read back as the same number, or
a fixed count of digits.

* `Reading`: the interval of reals that round to a number, over a common denominator;
* `shortest`: the first decimal grid, from coarse to fine, with a point in that interval, and the
  nearest such point;
* `nearest`: a number to a count of digits;
* `NumberText`: the decisions of a number format that are not forced by the value;
* `Binary64.text`: the written form of a number.
-/

namespace ResourceQuery

/-- The reals that round to a positive number: from `low / unit` to `high / unit`, the ends
included when `closed`; the number itself is `value / unit`. -/
structure Reading where
  low : Nat
  value : Nat
  high : Nat
  unit : Nat
  closed : Bool

namespace Reading

/-- The interval of `significand · 2 ^ exponent`. Below the least significand of a binade the
neighbour is half as far away. -/
def of (significand : Nat) (exponent : Int) : Reading :=
  let below := if significand = Nat.pow 2 52 ∧ Binary64.leastExponent < exponent then 1 else 2
  let (num, den) := Binary64.scaled 1 (exponent - 2)
  { low := (4 * significand - below) * num
    value := 4 * significand * num
    high := (4 * significand + 2) * num
    unit := den
    closed := significand % 2 == 0 }

/-- Whether `num / den` rounds to the number. -/
def holds (r : Reading) (num den : Nat) : Bool :=
  if r.closed then r.low * den ≤ num * r.unit && num * r.unit ≤ r.high * den
  else r.low * den < num * r.unit && num * r.unit < r.high * den

end Reading

/-- `n · 10 ^ e` as a numerator and a denominator. -/
def decimalScaled (n : Nat) (e : Int) : Nat × Nat :=
  if 0 ≤ e then (n * Nat.pow 10 e.toNat, 1) else (n, Nat.pow 10 (-e).toNat)

/-- The greatest `k` with `10 ^ k ≤ num / den`, for positive `num` and `den`. -/
def floorLog10 (num den : Nat) : Int :=
  let guess : Int := ((Nat.toDigits 10 num).length : Int) - (Nat.toDigits 10 den).length
  let (low, unit) := decimalScaled den guess
  if low ≤ num * unit then guess else guess - 1

/-- The point of the grid `10 ^ e` nearest the number among the two around it, if one of them
reads back; of two equally near the even one. -/
def gridPoint (r : Reading) (e : Int) : Option Nat :=
  let (step, parts) := decimalScaled r.unit e
  let floor := (r.value * parts) / step
  let at_ (n : Nat) : Bool :=
    let (num, den) := decimalScaled n e
    n ≠ 0 && r.holds num den
  match at_ floor, at_ (floor + 1) with
  | true, true => some (roundHalfEven (r.value * parts) step)
  | true, false => some floor
  | false, true => some (floor + 1)
  | false, false => none

/-- The first hit on the grids from `count` digits on, at most `fuel` grids. -/
def searchGrids (r : Reading) (top : Int) (count : Nat) : Nat → Nat × Int
  | 0 => (r.value / r.unit, 0)
  | fuel + 1 =>
    let e := top - count + 1
    match gridPoint r e with
    | some n => (n, e)
    | none => searchGrids r top (count + 1) fuel

/-- A positive number as `digits · 10 ^ e` with the fewest digits that read back. -/
def shortest (significand : Nat) (exponent : Int) : Nat × Int :=
  let r := Reading.of significand exponent
  searchGrids r (floorLog10 r.value r.unit) 1 17

/-- A positive number as `digits · 10 ^ e` to a count of digits, a tie to the greater one. -/
def nearest (count significand : Nat) (exponent : Int) : Nat × Int :=
  let (num, den) := Binary64.scaled significand exponent
  let e := floorLog10 num den - count + 1
  let (step, parts) := decimalScaled den e
  ((2 * num * parts + step) / (2 * step), e)

/-- The decisions of a number format. -/
structure NumberText where
  /-- How many digits are written at most, when it is not the fewest that read back. -/
  precision : Option Nat := none
  /-- The least power of ten of the first digit that is written without an exponent. -/
  leastPositional : Int
  /-- The least power of ten of the first digit that needs an exponent again. -/
  leastScientific : Int
  /-- The least count of digits of an exponent. -/
  exponentWidth : Nat
  /-- What follows an integer written without an exponent. -/
  integerTail : List Char
  /-- What follows a single digit before an exponent. -/
  digitTail : List Char := []
  /-- Whether a negative zero has its sign. -/
  signsZero : Bool := true
  nan : List Char
  infinity : List Char

/-- Numbers below `10 ^ 16` are positional down to `0.0001`; an integer keeps `.0`; exponents have
a sign and two digits. -/
def NumberText.standard : NumberText where
  leastPositional := -4
  leastScientific := 16
  exponentWidth := 2
  integerTail := ['.', '0']
  nan := ['n', 'a', 'n']
  infinity := ['i', 'n', 'f']

/-- The decimal digits of `n`, without the zeros at the end, and how many zeros there were. -/
def significantDigits (n : Nat) : List Char × Nat :=
  let digits := Nat.toDigits 10 n
  let tail := digits.reverse.takeWhile (· == '0')
  ((digits.reverse.drop tail.length).reverse, tail.length)

/-- Digits whose first one stands for `10 ^ top`, written without an exponent. -/
def positional (format : NumberText) (digits : List Char) (top : Int) : List Char :=
  if top < 0 then '0' :: '.' :: List.replicate (-top - 1).toNat '0' ++ digits
  else
    let whole := top.toNat + 1
    if digits.length ≤ whole then
      digits ++ List.replicate (whole - digits.length) '0' ++ format.integerTail
    else digits.take whole ++ '.' :: digits.drop whole

/-- Digits whose first one stands for `10 ^ top`, written with an exponent. -/
def scientific (format : NumberText) (digits : List Char) (top : Int) : List Char :=
  let power := Nat.toDigits 10 top.natAbs
  let mantissa := match digits with
    | [] => []
    | [d] => d :: format.digitTail
    | d :: rest => d :: '.' :: rest
  mantissa ++ 'e' :: (if top < 0 then '-' else '+') ::
    List.replicate (format.exponentWidth - power.length) '0' ++ power

namespace Binary64

/-- The text of a number in a format. -/
def textIn (format : NumberText) : Binary64 → String
  | .nan => String.ofList format.nan
  | .infinite negative =>
    String.ofList (if negative then '-' :: format.infinity else format.infinity)
  | .finite negative significand exponent =>
    let sign := if negative then ['-'] else []
    if significand = 0 then
      String.ofList ((if format.signsZero then sign else []) ++ '0' :: format.integerTail)
    else
      let (n, e) := match format.precision with
        | none => shortest significand exponent
        | some count => nearest count significand exponent
      let (digits, zeros) := significantDigits n
      let top := e + zeros + digits.length - 1
      let body :=
        if format.leastPositional ≤ top ∧ top < format.leastScientific then
          positional format digits top
        else scientific format digits top
      String.ofList (sign ++ body)

/-- The text of a number: the fewest digits that read back as the same number. -/
def text (x : Binary64) : String := x.textIn .standard

end Binary64

end ResourceQuery
