/-!
# Dates and times

Days of the proleptic Gregorian calendar, times of day, and their written form.

* `Date`, `TimeOfDay`, `DateTime`: a day, a time with an optional distance from universal time,
  and both together;
* `Date.IsValid`, `TimeOfDay.IsValid`: the ranges of the parts;
* `Date.ofWeek?`: the day named by a year, a week and a day of the week;
* `Date.number`, `Date.ofNumber?`: days counted from the first day of year 1;
* `Date.text`, `TimeOfDay.text`, `DateTime.text`: the extended written form, with a fraction of
  six digits and a distance only where there is one;
* `DateTime.stored`, `TimeOfDay.stored`: the form that a store keeps, always with a fraction and
  never with a distance;
* `DateTime.sinceEpoch`, `DateTime.afterEpoch?`: a point in time as a length of time.
-/

namespace ResourceQuery

/-- A day of the calendar. -/
structure Date where
  year : Nat
  month : Nat
  day : Nat
deriving DecidableEq, Repr, Inhabited

/-- A time of day. The distance from universal time is in microseconds. -/
structure TimeOfDay where
  hour : Nat
  minute : Nat
  second : Nat
  microsecond : Nat
  offset : Option Int := none
deriving DecidableEq, Repr, Inhabited

/-- A time on a day. -/
structure DateTime where
  date : Date
  time : TimeOfDay
deriving DecidableEq, Repr, Inhabited

namespace Date

/-- Whether a year has a 29th of February. -/
def isLeap (year : Nat) : Bool := year % 4 == 0 && (year % 100 != 0 || year % 400 == 0)

/-- The number of days of a month; none outside the twelve. -/
def daysInMonth (year month : Nat) : Nat :=
  match month with
  | 1 | 3 | 5 | 7 | 8 | 10 | 12 => 31
  | 4 | 6 | 9 | 11 => 30
  | 2 => if isLeap year then 29 else 28
  | _ => 0

/-- The number of days of a year. -/
def daysInYear (year : Nat) : Nat := if isLeap year then 366 else 365

/-- The years that dates may lie in. -/
def yearInRange (year : Nat) : Bool := 1 ≤ year && year ≤ 9999

/-- A day that exists, in a year of at most four digits. -/
def IsValid (d : Date) : Prop :=
  1 ≤ d.year ∧ d.year ≤ 9999 ∧ 1 ≤ d.day ∧ d.day ≤ daysInMonth d.year d.month

instance (d : Date) : Decidable d.IsValid := by unfold IsValid; infer_instance

/-- The days from the first of January of year 1 to that of `year`. -/
def daysBefore (year : Nat) : Nat :=
  let past := year - 1
  365 * past + past / 4 - past / 100 + past / 400

/-- The day of the week of the first of January, counted from Monday as zero. -/
def firstWeekday (year : Nat) : Nat := daysBefore year % 7

/-- Whether a year has 53 weeks. -/
def hasLongWeeks (year : Nat) : Bool :=
  firstWeekday year == 3 || (firstWeekday year == 2 && isLeap year)

/-- The day that comes `n` days after the first of `month`, looking at most `fuel` months on. -/
def fromMonth (year month n : Nat) : Nat → Option Date
  | 0 => none
  | fuel + 1 =>
    if n < daysInMonth year month then some ⟨year, month, n + 1⟩
    else fromMonth year (month + 1) (n - daysInMonth year month) fuel

/-- The day that comes `n` days after the first of January of `year`, in that year or a
neighbouring one. -/
def ofDayOfYear (year : Nat) (n : Int) : Option Date :=
  if n < 0 then fromMonth (year - 1) 1 (n + daysInYear (year - 1)).toNat 12
  else if n < daysInYear year then fromMonth year 1 n.toNat 12
  else fromMonth (year + 1) 1 (n - daysInYear year).toNat 12

/-- The day of a week. Week 1 is the one with the year's first Thursday. -/
def ofWeek? (year week weekday : Nat) : Option Date :=
  let inYear := 1 ≤ week ∧ (week ≤ 52 ∨ (week = 53 ∧ hasLongWeeks year))
  if yearInRange year ∧ inYear ∧ 1 ≤ weekday ∧ weekday ≤ 7 then
    let first : Int := firstWeekday year
    let monday : Int := if first ≤ 3 then -first else 7 - first
    (ofDayOfYear year (monday + 7 * (week - 1) + (weekday - 1))).filter (yearInRange ·.year)
  else none

/-- How many days come before a day, from the first day of year 1 on. -/
def number (d : Date) : Int :=
  ((List.range (d.month - 1)).foldl (fun days m => days + daysInMonth d.year (m + 1))
    (daysBefore d.year + (d.day - 1)) : Nat)

/-- The day that so many days come before. -/
def ofNumber? (n : Int) : Option Date :=
  let guess := 400 * n.toNat / 146097 + 1
  let year :=
    if n < daysBefore guess then guess - 1
    else if n < daysBefore (guess + 1) then guess else guess + 1
  if 0 ≤ n ∧ yearInRange year then ofDayOfYear year (n - daysBefore year) else none

end Date

/-- A number with zeros in front up to a width. -/
def padded (width n : Nat) : List Char :=
  let digits := Nat.toDigits 10 n
  List.replicate (width - digits.length) '0' ++ digits

namespace TimeOfDay

/-- Microseconds of a day. -/
def dayLength : Int := 86400000000

/-- The parts are in range, and the distance from universal time is less than a day. -/
def IsValid (t : TimeOfDay) : Prop :=
  t.hour < 24 ∧ t.minute < 60 ∧ t.second < 60 ∧ t.microsecond < 1000000 ∧
    ∀ o ∈ t.offset, -dayLength < o ∧ o < dayLength

instance (t : TimeOfDay) : Decidable t.IsValid := by unfold IsValid; infer_instance

/-- A fraction of a second, when there is one. -/
def fractionText (microsecond : Nat) : List Char :=
  if microsecond = 0 then [] else '.' :: padded 6 microsecond

/-- The distance from universal time: hours and minutes, then seconds where there are some. -/
def offsetText (offset : Int) : List Char :=
  let total := offset.natAbs
  let seconds := total / 1000000
  let rest := total % 1000000
  let tail :=
    if seconds % 60 = 0 ∧ rest = 0 then []
    else ':' :: padded 2 (seconds % 60) ++ fractionText rest
  (if offset < 0 then '-' else '+') :: padded 2 (seconds / 3600) ++
    ':' :: padded 2 (seconds / 60 % 60) ++ tail

/-- A time as hours, minutes and seconds, with a fraction and a distance where there is one. -/
def chars (t : TimeOfDay) : List Char :=
  padded 2 t.hour ++ ':' :: padded 2 t.minute ++ ':' :: padded 2 t.second ++
    fractionText t.microsecond ++ (t.offset.map offsetText).getD []

/-- The written form of a time. -/
def text (t : TimeOfDay) : String := String.ofList t.chars

end TimeOfDay

/-- A day as year, month and day. -/
def Date.chars (d : Date) : List Char :=
  padded 4 d.year ++ '-' :: padded 2 d.month ++ '-' :: padded 2 d.day

/-- The written form of a day. -/
def Date.text (d : Date) : String := String.ofList d.chars

/-- A time as a store keeps it. -/
def TimeOfDay.storedChars (t : TimeOfDay) : List Char :=
  padded 2 t.hour ++ ':' :: padded 2 t.minute ++ ':' :: padded 2 t.second ++
    '.' :: padded 6 t.microsecond

/-- A time as a store keeps it. -/
def TimeOfDay.stored (t : TimeOfDay) : String := String.ofList t.storedChars

/-- A time on a day as a store keeps it. -/
def DateTime.stored (d : DateTime) : String :=
  String.ofList (d.date.chars ++ ' ' :: d.time.storedChars)

/-- The written form of a time on a day. -/
def DateTime.text (d : DateTime) : String := String.ofList (d.date.chars ++ 'T' :: d.time.chars)

/-! ## Lengths of time -/

/-- The day from which stores count lengths of time. -/
def epoch : Date := ⟨1970, 1, 1⟩

namespace TimeOfDay

/-- The microseconds of a day before a time. -/
def sinceMidnight (t : TimeOfDay) : Int :=
  ((t.hour * 60 + t.minute) * 60 + t.second) * 1000000 + t.microsecond

/-- The time of a day after so many microseconds. -/
def afterMidnight (n : Nat) : TimeOfDay :=
  let seconds := n / 1000000
  ⟨seconds / 3600, seconds / 60 % 60, seconds % 60, n % 1000000, none⟩

end TimeOfDay

namespace DateTime

/-- The length of time from the epoch to a point in time. -/
def sinceEpoch (d : DateTime) : Int :=
  (d.date.number - epoch.number) * TimeOfDay.dayLength + d.time.sinceMidnight

/-- The point in time after a length of time from the epoch on. -/
def afterEpoch? (length : Int) : Option DateTime :=
  (Date.ofNumber? (epoch.number + length / TimeOfDay.dayLength)).map fun date =>
    ⟨date, .afterMidnight (length % TimeOfDay.dayLength).toNat⟩

end DateTime

/-- A length of time: days where there are some, then hours, minutes and seconds. -/
def Calendar.lengthText (length : Int) : String :=
  let days := length / TimeOfDay.dayLength
  let rest := TimeOfDay.afterMidnight (length % TimeOfDay.dayLength).toNat
  let front := if days = 0 then "" else
    toString days ++ (if days.natAbs = 1 then " day, " else " days, ")
  front ++ toString rest.hour ++ String.ofList (':' :: padded 2 rest.minute ++
    ':' :: padded 2 rest.second ++ TimeOfDay.fractionText rest.microsecond)

end ResourceQuery
