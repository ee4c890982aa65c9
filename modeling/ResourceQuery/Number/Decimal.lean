import ResourceQuery.Number.Numeral

/-!
# Decimal numbers

Decimal numbers with an exact coefficient and a power of ten. The coefficient keeps its zeros at
the end, so `1.50` and `1.5` are different as written and equal in value.

* `Decimal`: a finite number, an infinity, or not a number with a diagnostic;
* `Decimal.read?`: a decimal number from its text;
* `Decimal.text`: its text, with an exponent only where the coefficient calls for one;
* `Decimal.toInt?`: the integer that a number is, if it is one;
* `Decimal.ofBinary64`: a floating-point number with a fixed count of digits after the point.
-/

namespace ResourceQuery

open Text

/-- A decimal number. -/
inductive Decimal
  /-- `± coefficient · 10 ^ exponent`. -/
  | finite (negative : Bool) (coefficient : Nat) (exponent : Int)
  /-- Positive or negative infinity. -/
  | infinite (negative : Bool)
  /-- Not a number, quiet or signalling, with a diagnostic number. -/
  | nan (negative signalling : Bool) (diagnostic : Nat)
deriving DecidableEq, Repr, Inhabited

namespace Decimal

/-- The greatest power of ten of a first digit. -/
def greatestPower : Int := 999999999999999999

/-- The least power of ten of a last digit. -/
def leastPower : Int := -1999999999999999997

/-- Whether a coefficient and an exponent are within the limits of decimal numbers. -/
def inRange (coefficient : Nat) (exponent : Int) : Bool :=
  let size : Int := if coefficient = 0 then 1 else (Nat.toDigits 10 coefficient).length
  leastPower ≤ exponent && exponent + size - 1 ≤ greatestPower

/-- The diagnostic of what is not a number: digits to the end. -/
def diagnostic? (chars : List Char) : Option Nat := (allDigits? asciiDigit? chars).map digitsValue

/-- What is not a number, by its name. -/
def readNan? (negative : Bool) (chars : List Char) : Option Decimal :=
  if isWord "nan" (chars.take 3) then (diagnostic? (chars.drop 3)).map (.nan negative false)
  else if isWord "snan" (chars.take 4) then (diagnostic? (chars.drop 4)).map (.nan negative true)
  else none

/-- A decimal number from its text: blanks around it and all underscores are dropped, and digits
of other scripts are read. -/
def read? (text : String) : Option Decimal :=
  let chars := ((trim isBlank text.toList).filter (· ≠ '_')).map toAscii
  let (negative, body) := takeSign chars
  if isWord "inf" body || isWord "infinity" body then some (.infinite negative)
  else
    match takeDecimal? body with
    | some (parts, []) =>
      if inRange parts.coefficient parts.exponent then
        some (.finite negative parts.coefficient parts.exponent)
      else none
    | _ => readNan? negative body

/-- A whole number with its sign written always. -/
def signed (i : Int) : List Char :=
  (if i < 0 then '-' else '+') :: Nat.toDigits 10 i.natAbs

/-- Digits with the point after the first `place` of them; zeros fill the gap. -/
def withPoint (digits : List Char) (place : Int) : List Char :=
  if place ≤ 0 then '0' :: '.' :: List.replicate (-place).toNat '0' ++ digits
  else if (digits.length : Int) ≤ place then
    digits ++ List.replicate (place.toNat - digits.length) '0'
  else digits.take place.toNat ++ '.' :: digits.drop place.toNat

/-- The text of a finite number without its sign. An exponent is written when the coefficient has
zeros to the right of its last digit, or more than six places of zeros after the point. -/
def finiteText (coefficient : Nat) (exponent : Int) : List Char :=
  let digits := Nat.toDigits 10 coefficient
  let left : Int := exponent + digits.length
  let place : Int := if exponent ≤ 0 ∧ -6 < left then left else 1
  withPoint digits place ++ (if left = place then [] else 'E' :: signed (left - place))

/-- The text of a decimal number. -/
def text : Decimal → String
  | .finite negative coefficient exponent =>
    String.ofList ((if negative then ['-'] else []) ++ finiteText coefficient exponent)
  | .infinite negative => if negative then "-Infinity" else "Infinity"
  | .nan negative signalling diagnostic =>
    let sign := if negative then "-" else ""
    let kind := if signalling then "sNaN" else "NaN"
    let tail := if diagnostic = 0 then "" else String.ofList (Nat.toDigits 10 diagnostic)
    sign ++ kind ++ tail

/-- The exact value of a finite number, as a numerator and a positive denominator. -/
def ratio? : Decimal → Option (Int × Nat)
  | .finite negative coefficient exponent =>
    let num : Int := if negative then -(coefficient : Int) else coefficient
    some (if 0 ≤ exponent then (num * Int.pow 10 exponent.toNat, 1)
      else (num, Nat.pow 10 (-exponent).toNat))
  | _ => none

/-- The integer that a finite number is, if it is one. -/
def toInt? (d : Decimal) : Option Int :=
  d.ratio?.bind fun (num, den) => if num % den = 0 then some (num / den) else none

/-- Whether the number is zero, of either sign. -/
def isZero : Decimal → Bool
  | .finite _ 0 _ => true
  | _ => false

/-- The nearest floating-point number. -/
def toBinary64 : Decimal → Binary64
  | .finite negative coefficient exponent => .ofDecimal negative coefficient exponent
  | .infinite negative => .infinite negative
  | .nan .. => .nan

/-- A floating-point number with so many digits after the point. -/
def ofBinary64 (places : Nat) : Binary64 → Decimal
  | .nan => .nan false false 0
  | .infinite negative => .infinite negative
  | .finite negative significand exponent =>
    let (num, den) := Binary64.scaled significand exponent
    .finite negative (roundHalfEven (num * Nat.pow 10 places) den) (-places)

end Decimal

end ResourceQuery
