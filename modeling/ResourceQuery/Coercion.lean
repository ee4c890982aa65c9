import ResourceQuery.Value
import ResourceQuery.Schema
import ResourceQuery.Calendar.Reading
import ResourceQuery.Text.Letter

/-!
# Coercion

A text that is compared with a column becomes a value of the column's type where it reads as one.
Everything else, and a text that does not read as one, stays as it is.

* `ColumnType.read?`: the value of a type that a text stands for;
* `Value.coerceTo`: a value for a column of a type.
-/

namespace ResourceQuery

open Text

/-- The truth value of a word, in either case. -/
def readBool? (text : String) : Option Bool :=
  let word := lowercase text
  if word ∈ ["true", "1", "yes"] then some true
  else if word ∈ ["false", "0", "no"] then some false
  else none

/-- The value of a type that a text stands for. -/
def ColumnType.read? (type : ColumnType) (text : String) : Option Value :=
  match type with
  | .boolean => (readBool? text).map .bool
  | .integer => (readInteger? text).map .int
  | .float => (readBinary64? text).map .float
  | .decimal _ => (Decimal.read? text).map .decimal
  | .dateTime => (Calendar.readDateTime? text).map .dateTime
  | .date => (Calendar.readDate? text).map .date
  | .time => (Calendar.readTime? text).map .time
  | .text | .interval | .binary | .untyped => none

/-- A value for a column of a type. -/
def Value.coerceTo (type : ColumnType) : Value → Value
  | .text s => (type.read? s).getD (.text s)
  | v => v

end ResourceQuery
