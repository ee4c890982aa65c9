import ResourceQuery.Value
import ResourceQuery.Schema
import ResourceQuery.Error
import ResourceQuery.Calendar.Reading

/-!
# Cells

The values that a store holds, and how it compares them.

* `Cell`: null, an integer, a floating-point number, a text or a byte string;
* `Cell.ofValue`, `Value.storeFault?`: a value as a cell, and what keeps a value out of the store;
* `Cell.read?`, `Cell.toValue`: a cell of a column as a value;
* `Cell.order`: the order of cells: null, numbers, texts, byte strings;
* `Cell.toText`: a cell as text;
* `Cell.forColumn`: a cell as it is compared with a column of a type;
* `Cell.compare?`: a comparison in three-valued logic.
-/

namespace ResourceQuery

open Text

/-- A value in the store. -/
inductive Cell
  | null
  | integer (i : Int)
  | real (x : Binary64)
  | text (s : String)
  | blob (bs : List UInt8)
deriving DecidableEq, Repr, Inhabited

namespace Cell

/-- The least and the greatest integer in the store. -/
def leastInteger : Int := -Int.pow 2 63

/-- The greatest integer in the store. -/
def greatestInteger : Int := Int.pow 2 63 - 1

/-- A number as a cell; what is not a number is stored as null. -/
def ofFloat : Binary64 → Cell
  | .nan => null
  | x => real x

/-- A value as a cell. Values of a kind that the store does not have become null. -/
def ofValue : Value → Cell
  | .null => null
  | .bool b => integer (if b then 1 else 0)
  | .int i => integer i
  | .float x => ofFloat x
  | .decimal d => ofFloat d.toBinary64
  | .text s => text s
  | .bytes bs => blob bs
  | .date d => text d.text
  | .time t => text t.stored
  | .dateTime d => text d.stored
  | .interval length => ((DateTime.afterEpoch? length).map fun d => text d.stored).getD null
  | _ => null

end Cell

/-- What keeps a value out of the store. -/
def Value.storeFault? : Value → Option StoreFault
  | .int i =>
    if i < Cell.leastInteger ∨ Cell.greatestInteger < i then some .integerTooLarge else none
  | .decimal (.nan _ true _) => some .unboundValue
  | .interval length => if (DateTime.afterEpoch? length).isNone then some .unboundValue else none
  | .list _ | .tuple _ | .set _ | .map _ | .refinement .. | .foreign _ => some .unsupportedValue
  | _ => none

namespace Cell

/-- A cell as the value that it is on its own. -/
def plainValue : Cell → Value
  | null => .null
  | integer i => .int i
  | real x => .float x
  | text s => .text s
  | blob bs => .bytes bs

/-- The text that a cell is. -/
def text? : Cell → Option String
  | text s => some s
  | _ => none

/-- The truth value that a cell counts as: zero and what is empty is false. -/
def isTruthy : Cell → Bool
  | null => false
  | integer i => i ≠ 0
  | real x => !x.isZero
  | text s => !s.isEmpty
  | blob bs => !bs.isEmpty

/-- A cell that is not null as a value of a column of a type. Dates and times are kept as texts, and
lengths of time as points in time. -/
def readAs? (c : Cell) : ColumnType → Option Value
  | .integer | .text | .float | .untyped => some c.plainValue
  | .boolean => some (.bool c.isTruthy)
  | .decimal places =>
    match c with
    | integer i => some (.decimal (.ofBinary64 places (.ofInt i)))
    | real x => some (.decimal (.ofBinary64 places x))
    | _ => none
  | .date => (c.text?.bind Calendar.readDate?).map .date
  | .time => (c.text?.bind Calendar.readTime?).map .time
  | .dateTime => (c.text?.bind Calendar.readDateTime?).map .dateTime
  | .interval => (c.text?.bind Calendar.readDateTime?).map fun d => .interval d.sinceEpoch
  | .binary =>
    match c with
    | blob bs => some (.bytes bs)
    | _ => none

/-- A cell of a column of a type as a value, if it can be read as one. -/
def read? (type : ColumnType) : Cell → Option Value
  | null => some .null
  | c => c.readAs? type

/-- A cell of a column of a type as a value. What cannot be read as one stays as it is. -/
def toValue (type : ColumnType) (c : Cell) : Value := (c.read? type).getD c.plainValue

/-- Whether a cell is null. -/
def isNull : Cell → Bool
  | null => true
  | _ => false

/-- The place of a cell's kind in the order of cells. -/
def rank : Cell → Nat
  | null => 0
  | integer _ | real _ => 1
  | text _ => 2
  | blob _ => 3

/-- The order of two numbers. -/
def numberOrder (a b : Cell) : Ordering :=
  match a, b with
  | integer i, integer j => compare i j
  | integer i, real x => ((x.orderWithInt? i).map Ordering.swap).getD .eq
  | real x, integer i => (x.orderWithInt? i).getD .eq
  | real x, real y => (x.order? y).getD .eq
  | _, _ => .eq

/-- The order of two byte strings. -/
def bytesOrder : List UInt8 → List UInt8 → Ordering
  | [], [] => .eq
  | [], _ :: _ => .lt
  | _ :: _, [] => .gt
  | a :: as, b :: bs => (compare a.toNat b.toNat).then (bytesOrder as bs)

/-- The order of two cells. -/
def order (a b : Cell) : Ordering :=
  match a, b with
  | text s, text t => compare s t
  | blob s, blob t => bytesOrder s t
  | a, b => if a.rank = 1 ∧ b.rank = 1 then numberOrder a b else compare a.rank b.rank

/-- White space of ASCII. -/
def isSpace (c : Char) : Bool :=
  c = ' ' || c = '\t' || c = '\n' || c = '\x0b' || c = '\x0c' || c = '\r'

/-- The number at the front of a text, and what follows it. Without a point and an exponent it is
an integer, if it is not too large. -/
def takeNumber? (chars : List Char) : Option (Cell × List Char) :=
  let (negative, body) := takeSign chars
  let (whole, afterWhole) := takeDigits body
  let (fraction, afterFraction) := match afterWhole with
    | '.' :: after => takeDigits after
    | rest => ([], rest)
  if whole.isEmpty && fraction.isEmpty then none
  else
    let (power, rest) := (takePower? afterFraction).getD (0, afterFraction)
    let n : Int := digitsValue whole
    if rest == afterWhole && n ≤ greatestInteger then
      some (integer (if negative then -n else n), rest)
    else
      let parts : DecimalParts := ⟨whole, fraction, power⟩
      some (real (.ofDecimal negative parts.coefficient parts.exponent), rest)

/-- The number that a whole text is, blanks around it apart. -/
def numberOfText? (s : String) : Option Cell :=
  match takeNumber? (s.toList.dropWhile isSpace) with
  | some (n, rest) => if rest.all isSpace then some n else none
  | none => none

/-- The number at the front of a text; zero when there is none. -/
def numberAtFront (s : String) : Cell :=
  ((takeNumber? (s.toList.dropWhile isSpace)).map (·.1)).getD (real (.zero false))

/-- The format of a floating-point number that becomes a text in the store: fifteen digits at most,
exponents from `10 ^ 15` on, no sign of zero, and a capital for infinity. -/
def realText : NumberText :=
  { NumberText.standard with
    precision := some 15, leastScientific := 15, digitTail := ['.', '0'], signsZero := false
    infinity := ['I', 'n', 'f'] }

/-- The code that the first byte of a character of several bytes begins with. -/
def leadingCode (b : Nat) : Nat :=
  if b < 0xE0 then b - 0xC0
  else if b < 0xF0 then b - 0xE0
  else if b < 0xF8 then b - 0xF0
  else if b < 0xFC then b - 0xF8
  else if b < 0xFE then b - 0xFC
  else 0

/-- The character of a code that was read from several bytes. What is no character is replaced. -/
def decodedChar (code : Nat) : Char :=
  if code < 0x80 ∨ code = 0xFFFE ∨ code = 0xFFFF ∨ ¬ code.isValidChar then Char.ofNat 0xFFFD
  else Char.ofNat code

/-- The characters of some bytes, after the code of a character that is not complete. A byte that
belongs to no character stands for itself. -/
def decodedFrom (code : Option Nat) : List UInt8 → List Char
  | [] => code.toList.map decodedChar
  | b :: rest =>
    let n := b.toNat
    if 0x80 ≤ n ∧ n < 0xC0 then
      match code with
      | some code => decodedFrom (some ((code * 64 + n % 64) % Nat.pow 2 32)) rest
      | none => Char.ofNat n :: decodedFrom none rest
    else code.toList.map decodedChar ++
      if n < 0x80 then Char.ofNat n :: decodedFrom none rest
      else decodedFrom (some (leadingCode n)) rest

/-- A cell as text. -/
def toText : Cell → String
  | null => ""
  | integer i => toString i
  | real x => x.textIn realText
  | text s => s
  | blob bs => String.ofList (decodedFrom none bs)

/-- A cell as it is compared with a column: a text that is a number is one for a column of numbers,
and a number is a text for a column of texts. -/
def forColumn (type : ColumnType) (c : Cell) : Cell :=
  match type, c with
  | .text, integer i => text (integer i).toText
  | .text, real x => text (real x).toText
  | .text, c => c
  | .binary, c => c
  | .untyped, c => c
  | _, text s => (numberOfText? s).getD (text s)
  | _, c => c

/-- Whether an order satisfies a comparison. -/
def holdsFor (comparison : Comparison) (o : Ordering) : Bool :=
  match comparison with
  | .eq => o == .eq
  | .ne => o != .eq
  | .lt => o == .lt
  | .le => o != .gt
  | .gt => o == .gt
  | .ge => o != .lt
  | .like => false

/-- A comparison of two cells. It is unknown when one of them is null. -/
def compare? (comparison : Comparison) (a b : Cell) : Option Bool :=
  if a.isNull || b.isNull then none else some (holdsFor comparison (order a b))

end Cell

end ResourceQuery
