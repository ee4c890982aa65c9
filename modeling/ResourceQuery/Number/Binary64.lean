/-!
# Binary floating-point numbers

Floating-point numbers with 53 significant bits, as exact values. Nothing here uses the machine's
arithmetic: a finite number is a sign, a significand and a power of two, and every operation is
the exact result rounded once.

* `Binary64`: not a number, an infinity, or `± significand · 2 ^ exponent`;
* `roundHalfEven`: a quotient rounded to the nearest integer, a tie to the even one;
* `Binary64.ofRatio`: the number nearest a quotient, ties to an even significand; quotients too
  large become infinite;
* `Binary64.ratio?`: the exact value of a finite number;
* `Binary64.order?`: comparison, undefined when one side is not a number;
* `Binary64.add`, `Binary64.divide`: the rounded sum and quotient.
-/

namespace ResourceQuery

/-- A floating-point number with 53 significant bits. -/
inductive Binary64
  /-- Not a number. -/
  | nan
  /-- Positive or negative infinity. -/
  | infinite (negative : Bool)
  /-- `± significand · 2 ^ exponent`. -/
  | finite (negative : Bool) (significand : Nat) (exponent : Int)
deriving DecidableEq, Repr, Inhabited

/-- `num / den` to the nearest integer, a tie to the even one. -/
def roundHalfEven (num den : Nat) : Nat :=
  let floor := num / den
  let rest := 2 * (num % den)
  if rest < den then floor
  else if den < rest then floor + 1
  else if floor % 2 = 0 then floor
  else floor + 1

namespace Binary64

/-- Zero, with the sign it carries. -/
def zero (negative : Bool) : Binary64 := .finite negative 0 0

/-- The least exponent of a finite number. -/
def leastExponent : Int := -1074

/-- The greatest exponent of a finite number. -/
def greatestExponent : Int := 971

/-- `n · 2 ^ e`, kept exact for `e` of either sign as a numerator and a denominator. -/
def scaled (n : Nat) (e : Int) : Nat × Nat :=
  if 0 ≤ e then (n * Nat.pow 2 e.toNat, 1) else (n, Nat.pow 2 (-e).toNat)

/-- The greatest `k` with `2 ^ k ≤ num / den`, for positive `num` and `den`. -/
def floorLog2 (num den : Nat) : Int :=
  let guess : Int := (num.log2 : Int) - den.log2
  let (low, unit) := scaled den guess
  if low ≤ num * unit then guess else guess - 1

/-- The exponent of the number nearest `num / den`: 53 bits are kept, unless the least exponent
comes first. -/
def exponentFor (num den : Nat) : Int := max (floorLog2 num den - 52) leastExponent

/-- The number nearest `± num / den`, a tie to the even significand. -/
def ofRatio (negative : Bool) (num den : Nat) : Binary64 :=
  if num = 0 ∨ den = 0 then zero negative
  else
    let e := exponentFor num den
    let (unit, parts) := scaled den e
    let significand := roundHalfEven (num * parts) unit
    if significand = 0 then zero negative
    else if significand < Nat.pow 2 53 then
      if greatestExponent < e then .infinite negative else .finite negative significand e
    else if greatestExponent < e + 1 then .infinite negative
    else .finite negative (significand / 2) (e + 1)

/-- The number nearest an integer. -/
def ofInt (i : Int) : Binary64 := ofRatio (i < 0) i.natAbs 1

/-- The exact value of a finite number, as a numerator and a positive denominator. -/
def ratio? : Binary64 → Option (Int × Nat)
  | .finite negative significand exponent =>
    let (num, den) := scaled significand exponent
    some (if negative then -(num : Int) else num, den)
  | _ => none

/-- Whether the number is zero, of either sign. -/
def isZero : Binary64 → Bool
  | .finite _ 0 _ => true
  | _ => false

/-- The integer that a finite number is, if it is one. -/
def toInt? (x : Binary64) : Option Int :=
  x.ratio?.bind fun (num, den) => if num % den = 0 then some (num / den) else none

/-- The order of two quotients with positive denominators. -/
def orderOfRatios (a b : Int × Nat) : Ordering := compare (a.1 * b.2) (b.1 * a.2)

/-- The order of two numbers; no order when one of them is not a number. -/
def order? (x y : Binary64) : Option Ordering :=
  match x, y with
  | .nan, _ => none
  | _, .nan => none
  | .infinite a, .infinite b => some (compare b.toNat a.toNat)
  | .infinite negative, _ => some (if negative then .lt else .gt)
  | _, .infinite negative => some (if negative then .gt else .lt)
  | x, y =>
    match x.ratio?, y.ratio? with
    | some a, some b => some (orderOfRatios a b)
    | _, _ => none

/-- The order of a number and an integer. -/
def orderWithInt? (x : Binary64) (i : Int) : Option Ordering :=
  match x with
  | .nan => none
  | .infinite negative => some (if negative then .lt else .gt)
  | x => x.ratio?.map fun r => orderOfRatios r (i, 1)

/-- The sum of two numbers, rounded once. -/
def add (x y : Binary64) : Binary64 :=
  match x, y with
  | .nan, _ => .nan
  | _, .nan => .nan
  | .infinite a, .infinite b => if a = b then .infinite a else .nan
  | .infinite a, _ => .infinite a
  | _, .infinite b => .infinite b
  | .finite sx mx ex, .finite sy my ey =>
    match (Binary64.finite sx mx ex).ratio?, (Binary64.finite sy my ey).ratio? with
    | some (a, p), some (b, q) =>
      let num := a * q + b * p
      if num = 0 then zero (sx && sy) else ofRatio (num < 0) num.natAbs (p * q)
    | _, _ => .nan

/-- The quotient of a number by a positive integer, rounded once. -/
def divide (x : Binary64) (n : Nat) : Binary64 :=
  match x with
  | .finite negative significand exponent =>
    let (num, den) := scaled significand exponent
    ofRatio negative num (den * n)
  | x => x

end Binary64

end ResourceQuery
