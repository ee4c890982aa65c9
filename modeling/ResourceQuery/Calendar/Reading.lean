import ResourceQuery.Calendar
import ResourceQuery.Text.Blank

/-!
# Reading dates and times

Dates and times in their basic and extended written forms.

* `readDate?`: a day as `YYYY-MM-DD`, `YYYYMMDD`, or by its week;
* `readTime?`: a time as `HH[:MM[:SS[.fraction]]]` or without the colons, with a distance from
  universal time at the end; a leading `T` is dropped;
* `readDateTime?`: a day, then any one character, then a time; or a day alone.

Digits are those of ASCII. The readers are lenient in a few places, and each says where.
-/

namespace ResourceQuery.Calendar

open Text

/-- A number of exactly `count` digits at the front. -/
def takeNumber? (count : Nat) (chars : List Char) : Option (Nat × List Char) :=
  let front := chars.take count
  if front.length < count then none
  else
    (front.mapM asciiDigit?).map fun digits =>
      (digits.foldl (fun n d => 10 * n + d) 0, chars.drop count)

/-- Nothing is left, or a character that ends every text. -/
def atEnd : List Char → Bool
  | [] => true
  | c :: _ => c.toNat == 0

/-- The rest of a text after a dash, where one is called for. -/
def takeDash? (dashed : Bool) (chars : List Char) : Option (List Char) :=
  if dashed then
    match chars with
    | '-' :: rest => some rest
    | _ => none
  else some chars

/-- A day by its week, after the letter. The day of the week may be missing at the end of the
first `length` characters of the text; `used` of them are behind us. -/
def takeWeek? (year : Nat) (dashed : Bool) (used length : Nat) (chars : List Char) :
    Option Date := do
  let (week, rest) ← takeNumber? 2 chars
  if used + 2 < length then
    let rest ← takeDash? dashed rest
    let (weekday, _) ← takeNumber? 1 rest
    Date.ofWeek? year week weekday
  else Date.ofWeek? year week 1

/-- A day at the front of a text, whose first `length` characters belong to it. What follows the
last part is not looked at. -/
def takeDate? (length : Nat) (chars : List Char) : Option Date := do
  let (year, rest) ← takeNumber? 4 chars
  let dashed := rest.head? == some '-'
  let rest := if dashed then rest.drop 1 else rest
  match rest with
  | 'W' :: rest => takeWeek? year dashed (if dashed then 6 else 5) length rest
  | rest =>
    let (month, rest) ← takeNumber? 2 rest
    let rest ← takeDash? dashed rest
    let (day, _) ← takeNumber? 2 rest
    some ⟨year, month, day⟩

/-- A day that exists. The text has as many bytes as one of the forms. -/
def readDate? (text : String) : Option Date :=
  if text.utf8ByteSize = 7 ∨ text.utf8ByteSize = 8 ∨ text.utf8ByteSize = 10 then
    (takeDate? text.utf8ByteSize text.toList).filter fun d => decide d.IsValid
  else none

/-- A fraction of a second: up to six digits count, further digits are skipped. Says whether
nothing is left. -/
def takeFraction? (chars : List Char) (end_ : List Char) : Option (Nat × Bool) := do
  let count := min chars.length 6
  let (n, rest) ← takeNumber? count chars
  let rest := rest.dropWhile fun c => (asciiDigit? c).isSome
  some (n * Nat.pow 10 (6 - count), atEnd (rest ++ end_))

/-- The parts of a time that are still to be read, those that were read, and whether they are
separated by colons. -/
def takeParts? (colons : Bool) (read : List Nat) (chars end_ : List Char) :
    Nat → Option (List Nat × Nat × Bool)
  | 0 => (takeFraction? chars end_).map fun (n, done) => (read.reverse, n, done)
  | left + 1 => do
    let (n, rest) ← takeNumber? 2 chars
    let read := n :: read
    match rest with
    | [] => some (read.reverse, 0, atEnd end_)
    | [c] => if c.toNat < 0x80 then some (read.reverse, 0, c.toNat == 0) else none
    | c :: after =>
      let colons := if read.length = 1 then c == ':' else colons
      if colons && c == ':' then takeParts? colons read after end_ left
      else if c == '.' || c == ',' then
        (takeFraction? after end_).map fun (n, done) => (read.reverse, n, done)
      else if colons then none
      else takeParts? colons read rest end_ left

/-- Hours, minutes, seconds and microseconds from all of `chars`, which `end_` follows. Says
whether everything was read; one character of ASCII too many is reported, not refused. -/
def takeClock? (chars end_ : List Char) : Option (TimeOfDay × Bool) := do
  let (parts, microsecond, done) ← takeParts? true [] chars end_ 3
  match parts with
  | [hour] => some (⟨hour, 0, 0, microsecond, none⟩, done)
  | [hour, minute] => some (⟨hour, minute, 0, microsecond, none⟩, done)
  | [hour, minute, second] => some (⟨hour, minute, second, microsecond, none⟩, done)
  | _ => none

/-- The microseconds of a distance from universal time. A distance of no whole second is none. -/
def offsetOf (negative : Bool) (t : TimeOfDay) : Int :=
  let seconds : Int := t.hour * 3600 + t.minute * 60 + t.second
  let total := if seconds = 0 then 0 else seconds * 1000000 + t.microsecond
  if negative then -total else total

/-- A time with its distance from universal time. Before a distance one character of
ASCII too many is passed over, and so is everything after six digits of a fraction. -/
def takeTime? (chars : List Char) : Option TimeOfDay := do
  let clock := chars.takeWhile fun c => c != '+' && c != '-' && c != 'Z'
  match chars.drop clock.length with
  | [] =>
    match ← takeClock? clock [] with
    | (time, true) => some time
    | (_, false) => none
  | mark :: rest =>
    let (time, _) ← takeClock? clock (mark :: rest)
    if mark = 'Z' then
      if atEnd rest then some { time with offset := some 0 } else none
    else
      match ← takeClock? rest [] with
      | (distance, true) => some { time with offset := some (offsetOf (mark == '-') distance) }
      | (_, false) => none

/-- A time that exists. -/
def readTime? (text : String) : Option TimeOfDay :=
  let chars := match text.toList with
    | 'T' :: rest => rest
    | chars => chars
  (takeTime? chars).filter fun t => decide t.IsValid

/-- How many characters the day at the front of a text has. A week without a dash may be followed
by its day or by the separator; where both fit, the count of digits decides. -/
def dateLength (chars : List Char) : Nat :=
  if chars.length = 7 then 7
  else if chars[4]? = some '-' then
    if chars[5]? = some 'W' then
      if chars[8]? = some '-' then
        if (chars[10]?.bind asciiDigit?).isSome then 8 else 10
      else 8
    else 10
  else if chars[4]? = some 'W' then
    let digits := ((chars.drop 7).takeWhile fun c => (asciiDigit? c).isSome).length
    if digits < 2 then 7 + digits else if (7 + digits) % 2 = 0 then 7 else 8
  else 8

/-- A day and a time that exist. Any one character may stand between them. -/
def readDateTime? (text : String) : Option DateTime := do
  let chars := text.toList
  let length := dateLength chars
  let date ← takeDate? length chars
  let time ← match chars.drop length with
    | [] => if chars.length < length then none else some ⟨0, 0, 0, 0, none⟩
    | _ :: rest => takeTime? rest
  if date.IsValid ∧ time.IsValid then some ⟨date, time⟩ else none

end ResourceQuery.Calendar
