import ResourceQuery.Number.Shortest
import ResourceQuery.Number.Decimal
import ResourceQuery.Calendar
import ResourceQuery.Text.Separated
import ResourceQuery.Text.Quoted

/-!
# Values

What a client may send as a parameter, and what a record may hold.

* `Value`: a scalar, a container of values, a refinement, or a foreign object;
* `RefineStep`: one step of a refinement of related rows;
* `Value.kind`: the name of a value's kind in messages;
* `Value.shown`, `Value.plain`: a value inside a message, with and without the marks of its kind;
* `Value.isEmpty`: the values that count as not given;
* `Value.elements?`: the elements of a sequence;
* `Value.ofEntries`: a mapping from entries, where the last entry of a repeated key wins.
-/

namespace ResourceQuery

open Text

/-- The comparisons of a column with a value. -/
inductive Comparison
  | eq | ne | lt | le | gt | ge
  /-- A pattern with wildcards. -/
  | like
deriving DecidableEq, Repr, Inhabited

/-- How a refinement is given: as a function, or as an object with a method, by the name of its
kind. -/
inductive Refinement.Form
  | function (kind : String)
  | object (kind : String)
deriving DecidableEq, Repr, Inhabited

mutual

/-- A value sent by a client or held by a record. -/
inductive Value
  | null
  | bool (b : Bool)
  | int (i : Int)
  | float (x : Binary64)
  | decimal (d : Decimal)
  | text (s : String)
  | bytes (bs : List UInt8)
  | date (d : Date)
  | time (t : TimeOfDay)
  | dateTime (d : DateTime)
  /-- A length of time in microseconds. -/
  | interval (length : Int)
  | list (elements : List Value)
  | tuple (elements : List Value)
  | set (elements : List Value)
  /-- A mapping, its entries in order. -/
  | map (entries : List (Value × Value))
  /-- A refinement of the rows of a relation. -/
  | refinement (form : Refinement.Form) (steps : List RefineStep)
  /-- An object that is none of the above, by the name of its kind. -/
  | foreign (kind : String)

/-- One step of a refinement. -/
inductive RefineStep
  /-- Equalities by API name; null asks for a missing value. -/
  | filterBy (entries : List (String × Value))
  /-- A comparison of a field, as it is. -/
  | compare (field : String) (comparison : Comparison) (value : Value)

end

instance : Inhabited Value := ⟨.null⟩

instance : Inhabited RefineStep := ⟨.filterBy []⟩

namespace Value

/-- The name of a value's kind. -/
def kind : Value → String
  | null => "NoneType"
  | bool _ => "bool"
  | int _ => "int"
  | float _ => "float"
  | decimal _ => "Decimal"
  | text _ => "str"
  | bytes _ => "bytes"
  | date _ => "date"
  | time _ => "time"
  | dateTime _ => "datetime"
  | interval _ => "timedelta"
  | list _ => "list"
  | tuple _ => "tuple"
  | set _ => "set"
  | map _ => "dict"
  | refinement (.function kind) _ | refinement (.object kind) _ => kind
  | foreign kind => kind

/-- Texts with a comma and a blank between them. -/
def listed (texts : List String) : String := String.intercalate ", " texts

mutual

/-- A value as a message shows it. -/
def shown : Value → String
  | null => "None"
  | bool true => "True"
  | bool false => "False"
  | int i => toString i
  | float x => x.text
  | decimal d => "Decimal('" ++ d.text ++ "')"
  | text s => quoted s
  | bytes bs => quotedBytes bs
  | date d => d.text
  | time t => t.text
  | dateTime d => d.text
  | interval length => Calendar.lengthText length
  | list xs => "[" ++ listed (shownAll xs) ++ "]"
  | tuple [] => "()"
  | tuple [x] => "(" ++ x.shown ++ ",)"
  | tuple (x :: xs) => "(" ++ listed (x.shown :: shownAll xs) ++ ")"
  | set [] => "set()"
  | set xs => "\x7b" ++ listed (shownAll xs) ++ "\x7d"
  | map entries => "\x7b" ++ listed (shownEntries entries) ++ "\x7d"
  | refinement .. => "<refinement>"
  | foreign _ => "<object>"

/-- Every value of a list as a message shows it. -/
def shownAll : List Value → List String
  | [] => []
  | x :: xs => x.shown :: shownAll xs

/-- Every entry of a mapping as a message shows it. -/
def shownEntries : List (Value × Value) → List String
  | [] => []
  | (k, v) :: rest => (k.shown ++ ": " ++ v.shown) :: shownEntries rest

end

/-- A value as text: a text is itself, a decimal number has no mark of its kind. -/
def plain : Value → String
  | text s => s
  | decimal d => d.text
  | v => v.shown

/-- Whether a value counts as not given: null, false, zero, or an empty text or container. -/
def isEmpty : Value → Bool
  | null => true
  | bool b => !b
  | int i => i == 0
  | float x => x.isZero
  | decimal d => d.isZero
  | text s => s.isEmpty
  | bytes bs => bs.isEmpty
  | list xs | tuple xs | set xs => xs.isEmpty
  | map entries => entries.isEmpty
  | _ => false

/-- Whether a value is null. -/
def isNull : Value → Bool
  | null => true
  | _ => false

/-- Whether a value is a mapping. -/
def isMap : Value → Bool
  | map _ => true
  | _ => false

/-- The elements of a sequence. Those of a text are its characters, those of a byte string
integers. -/
def elements? : Value → Option (List Value)
  | list xs | tuple xs => some xs
  | text s => some (s.toList.map fun c => text (String.singleton c))
  | bytes bs => some (bs.map fun b => int b.toNat)
  | _ => none

/-- The exact numeric value of a number, as a numerator and a denominator. -/
def ratio? : Value → Option (Int × Nat)
  | bool b => some (b.toNat, 1)
  | int i => some (i, 1)
  | float x => x.ratio?
  | decimal d => d.ratio?
  | _ => none

/-- Whether two scalars are the same key of a mapping: numbers by value, texts and byte strings
by their characters. -/
def sameScalar (a b : Value) : Bool :=
  match a, b with
  | null, null => true
  | text s, text t => s == t
  | bytes s, bytes t => s == t
  | float (.infinite p), float (.infinite q) => p == q
  | a, b =>
    match a.ratio?, b.ratio? with
    | some x, some y => x.1 * y.2 == y.1 * x.2
    | _, _ => false

mutual

/-- Whether two values are the same key of a mapping. -/
def sameKey : Value → Value → Bool
  | tuple xs, tuple ys => sameKeys xs ys
  | a, b => sameScalar a b

/-- Whether two lists hold the same keys in the same order. -/
def sameKeys : List Value → List Value → Bool
  | [], [] => true
  | x :: xs, y :: ys => sameKey x y && sameKeys xs ys
  | _, _ => false

end

mutual

/-- Whether a value can be a key of a mapping. -/
def canBeKey : Value → Bool
  | list _ | set _ | map _ => false
  | tuple xs => canBeKeys xs
  | _ => true

/-- Whether every value of a list can be a key. -/
def canBeKeys : List Value → Bool
  | [] => true
  | x :: xs => canBeKey x && canBeKeys xs

end

/-- The value of a key. -/
def lookup? (key : Value) (entries : List (Value × Value)) : Option Value :=
  (entries.find? fun (k, _) => k.sameKey key).map (·.2)

/-- A mapping with one more entry: a key that is there keeps its place and takes the value. -/
def putEntry (entries : List (Value × Value)) (key value : Value) : List (Value × Value) :=
  if entries.any fun (k, _) => k.sameKey key then
    entries.map fun (k, v) => if k.sameKey key then (k, value) else (k, v)
  else entries ++ [(key, value)]

/-- A mapping from its entries, the last one of a repeated key winning. -/
def ofEntries (entries : List (Value × Value)) : Value :=
  .map (entries.foldl (fun m (k, v) => putEntry m k v) [])

/-- A mapping with texts as keys. -/
def ofFields (fields : List (String × Value)) : Value :=
  .map (fields.map fun (k, v) => (.text k, v))

end Value

end ResourceQuery
