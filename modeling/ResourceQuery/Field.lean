import ResourceQuery.Error

/-!
# Selected fields

The fields and group parameters: names of fields, or an aggregate of a field written as a
function with its argument.

* `AggregateFunction`: the functions that a field name may call;
* `SelectedField`: a plain field, or an aggregate with its argument;
* `SelectedField.ofName`: the reading of a name;
* `SelectedField.label`: the key of the field in a row;
* `Fields.read?`: the fields of every resource type;
* `Group.read?`: the fields to group by.
-/

namespace ResourceQuery

open Text

/-- A function over the rows of a group. -/
inductive AggregateFunction
  | count | sum | avg | max | min
deriving DecidableEq, Repr, Inhabited

namespace AggregateFunction

/-- The functions in their order. -/
def all : List AggregateFunction := [count, sum, avg, max, min]

/-- The name of a function. -/
def name : AggregateFunction → String
  | count => "count"
  | sum => "sum"
  | avg => "avg"
  | max => "max"
  | min => "min"

end AggregateFunction

/-- A field to select: as it is, or an aggregate of an argument. -/
structure SelectedField where
  name : String
  aggregate : Option (AggregateFunction × String)
deriving DecidableEq, Repr, Inhabited

namespace SelectedField

/-- Whether the field is an aggregate. -/
def isAggregate (f : SelectedField) : Bool := f.aggregate.isSome

/-- The key of the field in a row: the function of an aggregate, the name otherwise. -/
def label (f : SelectedField) : String :=
  match f.aggregate with
  | some (function, _) => function.name
  | none => f.name

/-- What follows a word at the front of a text. -/
def after? : List Char → List Char → Option (List Char)
  | [], rest => some rest
  | c :: word, d :: rest => if c = d then after? word rest else none
  | _ :: _, [] => none

/-- The argument between the parenthesis at the front and the one at the end: at least one
character, and no line end. -/
def argument? (chars : List Char) : Option (List Char) :=
  match chars with
  | '(' :: rest =>
    match rest.reverse with
    | ')' :: inner => if inner.isEmpty || inner.contains '\n' then none else some inner.reverse
    | _ => none
  | _ => none

/-- A text without one line end after it. -/
def dropLineEnd (chars : List Char) : List Char :=
  match chars.reverse with
  | '\n' :: rest => rest.reverse
  | _ => chars

/-- The call of a function that a text is. -/
def callOf? (chars : List Char) : Option (AggregateFunction × String) :=
  AggregateFunction.all.findSome? fun f =>
    ((after? f.name.toList chars).bind argument?).map fun a => (f, String.ofList a)

/-- The reading of a name. One line end after a call is overlooked. -/
def ofName (name : String) : SelectedField := ⟨name, callOf? (dropLineEnd name.toList)⟩

end SelectedField

/-- The names from `index` on: texts that are not empty. -/
def readNames? (source : String) (index : Nat) : List Value → Checked (List String)
  | [] => .ok []
  | .text s :: rest =>
    if s = "" then failAt (some (source ++ "." ++ toString index)) (.noName (quoted s))
    else (readNames? source (index + 1) rest).map (s :: ·)
  | v :: _ => failAt (some (source ++ "." ++ toString index)) (.noName v.shown)

/-- A list of names: a text with commas, whose empty pieces are dropped, or a sequence. -/
def readNameList? (source : String) (raw : Value) : Checked (List String) :=
  match raw with
  | .text s => .ok (splitNonempty ',' s)
  | raw =>
    match raw.elements? with
    | some names => readNames? source 0 names
    | none => failAt (some source) (.notFieldList raw.kind)

namespace Fields

/-- The fields of the resource types, in order. -/
def readEntries? : List (Value × Value) → Checked (List (Value × List SelectedField))
  | [] => .ok []
  | (type, raw) :: rest => do
    let names ← readNameList? ("fields." ++ type.plain) raw
    let more ← readEntries? rest
    .ok ((type, names.map SelectedField.ofName) :: more)

/-- Every resource type is a text. -/
def typed? : List (Value × List SelectedField) →
    Except QueryError (List (String × List SelectedField))
  | [] => .ok []
  | (.text type, fields) :: rest => (typed? rest).map ((type, fields) :: ·)
  | _ :: _ => .error .untypedResources

/-- The fields of every resource type of the fields parameter. -/
def read? (spec : Value) : Except QueryError (List (String × List SelectedField)) :=
  if spec.isEmpty then .ok []
  else
    match spec with
    | .map entries => do typed? (← (readEntries? entries).lift)
    | v => (failAt (some "fields") (.notFieldMapping v.kind)).lift

/-- The fields of one resource type. -/
def ofType (projections : List (String × List SelectedField)) (type : String) :
    List SelectedField :=
  ((projections.find? (·.1 == type)).map (·.2)).getD []

end Fields

/-- The fields of the group parameter. -/
def Group.read? (spec : Value) : Checked (List SelectedField) :=
  if spec.isEmpty then .ok []
  else (readNameList? "group" spec).map fun names => names.map SelectedField.ofName

end ResourceQuery
