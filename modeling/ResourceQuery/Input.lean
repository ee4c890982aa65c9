import ResourceQuery.Error

/-!
# Reading values by shape

A value from a client is read as the integer, text or list that it stands for, even when it comes
in another form: an integer as text, a text as bytes, a list as a set.

* `Input.readInteger`: an integer of a number or of a text;
* `Input.readAtLeast`: an integer with a lower bound;
* `Input.readText`: a text, or the text that bytes encode;
* `Input.readList`: the elements of a list, tuple or set;
* `Input.keyText`: a key as a location names it;
* `Input.at_`: the location of a failed reading.
-/

namespace ResourceQuery.Input

open Text

/-- A reading without a location yet. -/
abbrev Reading (α : Type) := Except InputFault α

/-- A reading with the location of its fault. -/
abbrev Located (α : Type) := Except InputError α

/-- A reading at a location. -/
def at_ {α : Type} (location : List String) (reading : Reading α) : Located α :=
  reading.mapError fun fault => ⟨location, fault⟩

/-- A located reading, one key further in. -/
def under {α : Type} (key : String) (reading : Located α) : Located α :=
  reading.mapError fun e => ⟨key :: e.location, e.fault⟩

/-- A key as a location names it. -/
def keyText : Value → String
  | .text s => s
  | v => v.shown

/-- Whether a text is digits of ASCII with single underscores between them, and the number they
stand for. -/
def wholeNumber? (chars : List Char) : Option Nat := do
  let digits ← ungrouped? (fun c => (asciiDigit? c).isSome) false chars
  let values ← allDigits? asciiDigit? digits
  if values.isEmpty then none else some (digitsValue values)

/-- A text without a point and the zeros after it; there is at least one zero. -/
def dropZeroFraction (chars : List Char) : List Char :=
  match chars.reverse.dropWhile (· = '0') with
  | '.' :: before => if chars.getLast? = some '0' then before.reverse else chars
  | _ => chars

/-- The greatest length of a text that is read as an integer. -/
def textLimit : Nat := 4300

/-- An integer in a text: a sign, digits, and perhaps a fraction of zeros. White space around it
is dropped. -/
def integerOfText (chars : List Char) : Reading Int :=
  let body := trim isWhiteSpace chars
  if textLimit < body.length then .error .oversizedInteger
  else
    let (negative, number) := takeSign body
    match wholeNumber? (dropZeroFraction number) with
    | some n => .ok (if negative then -(n : Int) else n)
    | none => .error .unreadableInteger

/-- The text that bytes encode. -/
def textOfBytes? (bytes : List UInt8) : Option String :=
  String.fromUTF8? ⟨bytes.toArray⟩

/-- Numbers of this size and above are no integers when they come with a binary point. -/
def floatLimit : Int := Int.pow 2 63

/-- The integer that a number of a floating-point kind is. -/
def integerOfFloat (x : Binary64) : Reading Int :=
  match x with
  | .finite .. =>
    match x.toInt? with
    | some i => if floatLimit ≤ i ∨ i ≤ -floatLimit then .error .oversizedInteger else .ok i
    | none => .error .fractional
  | _ => .error .notFinite

/-- The integer that a decimal number is. -/
def integerOfDecimal (d : Decimal) : Reading Int :=
  match d with
  | .finite .. =>
    match d.toInt? with
    | some i => .ok i
    | none => .error .fractional
  | _ => .error .notFinite

/-- An integer, from a number or from a text. -/
def readInteger : Value → Reading Int
  | .bool b => .ok (if b then 1 else 0)
  | .int i => .ok i
  | .float x => integerOfFloat x
  | .decimal d => integerOfDecimal d
  | .text s => integerOfText s.toList
  | .bytes bs =>
    match textOfBytes? bs with
    | some s => integerOfText s.toList
    | none => .error .unreadableInteger
  | _ => .error .notInteger

/-- An integer that is not below a bound. -/
def readAtLeast (least : Nat) (v : Value) : Reading Int := do
  let i ← readInteger v
  if i < least then .error (.below least) else .ok i

/-- A text, or the text that bytes encode. -/
def readText : Value → Reading String
  | .text s => .ok s
  | .bytes bs =>
    match textOfBytes? bs with
    | some s => .ok s
    | none => .error .notUtf8
  | _ => .error .notText

/-- The elements of a list, tuple or set. -/
def readList : Value → Reading (List Value)
  | .list xs | .tuple xs | .set xs => .ok xs
  | _ => .error .notList

/-- Every element of a list from `index` on, as a text. -/
def readTexts (index : Nat) : List Value → Located (List String)
  | [] => .ok []
  | v :: rest => do
    let s ← at_ [toString index] (readText v)
    let more ← readTexts (index + 1) rest
    .ok (s :: more)

/-- A list of texts. -/
def readTextList (v : Value) : Located (List String) := do
  readTexts 0 (← at_ [] (readList v))

/-- A key of a mapping, which is a text. -/
def readKey (key : Value) : Located String := at_ [keyText key, "[key]"] (readText key)

/-- Entries with one more: a key that is there keeps its place and takes the value. -/
def putText {α : Type} (entries : List (String × α)) (key : String) (value : α) :
    List (String × α) :=
  if entries.any (·.1 == key) then
    entries.map fun e => if e.1 == key then (key, value) else e
  else entries ++ [(key, value)]

/-- A mapping with texts as keys, from its entries in order. -/
def ofEntries {α : Type} (entries : List (String × α)) : List (String × α) :=
  entries.foldl (fun m e => putText m e.1 e.2) []

end ResourceQuery.Input
