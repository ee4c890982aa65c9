import ResourceQuery.Number.Binary64
import ResourceQuery.Text.Blank

/-!
# Reading numbers

Texts that stand for integers and floating-point numbers.

* `digitsValue`: the value of a list of digits;
* `ungrouped?`: digits with single underscores between them, the underscores removed;
* `readInteger?`: an integer with digits of any script, white space around it and a sign;
* `readBinary64?`: a floating-point number, with an exponent, or one of the names of infinity and
  of what is not a number.
-/

namespace ResourceQuery

open Text

/-- The value of a list of decimal digits, the first one the most significant. -/
def digitsValue (digits : List Nat) : Nat := digits.foldl (fun n d => 10 * n + d) 0

/-- A sign at the front, and the text after it. -/
def takeSign : List Char → Bool × List Char
  | '-' :: rest => (true, rest)
  | '+' :: rest => (false, rest)
  | chars => (false, chars)

/-- Whether a text reads the same in either case as a word given in lower case. -/
def isWord (word : String) (chars : List Char) : Bool :=
  chars.map Char.toLower == word.toList

/-- A text without the underscores that stand between two digits; any other underscore is an
error. `before` says whether the character in front is a digit. -/
def ungrouped? (isDigit : Char → Bool) (before : Bool) : List Char → Option (List Char)
  | [] => some []
  | '_' :: c :: rest =>
    if before && isDigit c then (ungrouped? isDigit true rest).map (c :: ·) else none
  | '_' :: [] => none
  | c :: rest => (ungrouped? isDigit (isDigit c) rest).map (c :: ·)

/-- The values of the characters of a text, if all are digits. -/
def allDigits? (value? : Char → Option Nat) (chars : List Char) : Option (List Nat) :=
  chars.mapM value?

/-- The greatest count of digits that an integer may be written with. -/
def digitLimit : Nat := 4300

/-- An integer: white space around it is dropped, a sign may come first, and single underscores may
stand between digits of any script. -/
def readInteger? (text : String) : Option Int := do
  let (negative, chars) := takeSign (trim isWhiteSpace text.toList)
  let plain ← ungrouped? (fun c => (digitValue? c).isSome) false chars
  let digits ← allDigits? digitValue? plain
  if digits.isEmpty || digitLimit < digits.length then none
  else
    let n : Int := digitsValue digits
    some (if negative then -n else n)

/-- The longest run of ASCII digits at the front, and the rest. -/
def takeDigits : List Char → List Nat × List Char
  | [] => ([], [])
  | c :: rest =>
    match asciiDigit? c with
    | some d =>
      let (digits, after) := takeDigits rest
      (d :: digits, after)
    | none => ([], c :: rest)

/-- The parts of an unsigned decimal number: the digits before the point, those after it, and the
power of ten. -/
structure DecimalParts where
  whole : List Nat
  fraction : List Nat
  power : Int

/-- The value of the digits, before the power of ten is applied. -/
def DecimalParts.coefficient (p : DecimalParts) : Nat := digitsValue (p.whole ++ p.fraction)

/-- The power of ten of the last digit. -/
def DecimalParts.exponent (p : DecimalParts) : Int := p.power - p.fraction.length

/-- An exponent: a letter `e`, a sign, and at least one digit. A text that holds no exponent has
the power zero. -/
def takePower? (chars : List Char) : Option (Int × List Char) :=
  match chars with
  | [] => some (0, [])
  | c :: rest =>
    if c = 'e' ∨ c = 'E' then
      let (negative, rest) := takeSign rest
      match takeDigits rest with
      | ([], _) => none
      | (digits, after) =>
        let n : Int := digitsValue digits
        some (if negative then -n else n, after)
    else some (0, chars)

/-- An unsigned decimal number at the front of a text, and what follows it. There is a digit
before the point or after it. -/
def takeDecimal? (chars : List Char) : Option (DecimalParts × List Char) := do
  let (whole, rest) := takeDigits chars
  let (fraction, rest) := match rest with
    | '.' :: after => takeDigits after
    | rest => ([], rest)
  if whole.isEmpty && fraction.isEmpty then none
  else
    let (power, rest) ← takePower? rest
    some (⟨whole, fraction, power⟩, rest)

/-- The floating-point number nearest `± coefficient · 10 ^ exponent`. Powers that are out of
reach of every finite number are decided without computing them. -/
def Binary64.ofDecimal (negative : Bool) (coefficient : Nat) (exponent : Int) : Binary64 :=
  let size : Int := (Nat.toDigits 10 coefficient).length
  if coefficient = 0 ∨ size + exponent < -330 then .zero negative
  else if 310 < size + exponent then .infinite negative
  else if 0 ≤ exponent then .ofRatio negative (coefficient * Nat.pow 10 exponent.toNat) 1
  else .ofRatio negative coefficient (Nat.pow 10 (-exponent).toNat)

/-- A character with digits of other scripts and blanks brought to ASCII. -/
def toAscii (c : Char) : Char :=
  if c.toNat < 0x80 then c
  else if isBlank c then ' '
  else
    match digitValue? c with
    | some d => Char.ofNat (48 + d)
    | none => c

/-- A floating-point number: white space around it is dropped, a sign may come first, and single
underscores may stand between digits. -/
def readBinary64? (text : String) : Option Binary64 := do
  let chars := (trim isWhiteSpace text.toList).map toAscii
  let plain ← ungrouped? (fun c => (asciiDigit? c).isSome) false chars
  let (negative, body) := takeSign plain
  if isWord "inf" body || isWord "infinity" body then some (.infinite negative)
  else if isWord "nan" body then some .nan
  else
    match takeDecimal? body with
    | some (parts, []) => some (.ofDecimal negative parts.coefficient parts.exponent)
    | _ => none

end ResourceQuery
