import ResourceQuery.Path
import ResourceQuery.ValueList

/-!
# Filters

The filter parameter: a mapping from fields to values, or from an operator to such a mapping.

* `FilterClause`: an operator, a path to a field, and the values to compare it with;
* `FilterClause.make?`: a clause with at least one value;
* `FilterClause.read?`: one item of the parameter;
* `Filter.read?`: the clauses of the parameter, in its order.

The values of a clause are alternatives, or exceptions for `not`; the clauses hold together. The
text `null` and a missing value both ask for a field without a value.
-/

namespace ResourceQuery

/-- One condition of a filter. Null among the values asks for a field without a value. -/
structure FilterClause where
  operator : FilterOperator
  path : FieldPath
  values : List Value
deriving Inhabited

namespace FilterClause

/-- Whether a field without a value is asked for. -/
def hasNull (c : FilterClause) : Bool := c.values.any (·.isNull)

/-- The values apart from null. -/
def nonNull (c : FilterClause) : List Value := c.values.filter (!·.isNull)

/-- A clause, unless it has no values. -/
def make? (operator : FilterOperator) (path : FieldPath) (values : List Value) :
    Checked FilterClause :=
  if values.isEmpty then failAt (some path.dotted) .clauseWithoutValues
  else .ok ⟨operator, path, values⟩

/-- The text that stands for a missing value. -/
def nullText : String := "null"

/-- A token as a value: the text `null` is a missing value. -/
def interpret : Value → Value
  | .text s => if s = nullText then .null else .text s
  | v => v

/-- Whether a token can be compared with a field. -/
def isScalar : Value → Bool
  | .null | .text _ | .int _ | .float _ | .bool _ => true
  | _ => false

/-- The first token that is no scalar is an error. -/
def checkScalars (source : String) : List Value → Checked Unit
  | [] => .ok ()
  | v :: rest =>
    if isScalar v then checkScalars source rest else failAt (some source) (.notScalar v.kind)

/-- The values of an item: at least one, and exactly one for a comparison by order. -/
def readValues? (operator : FilterOperator) (source : String) (raw : Value) :
    Checked (List Value) := do
  let tokens := ValueList.ofValue raw
  checkScalars source tokens
  if tokens.isEmpty then failAt (some source) .noValues
  else if operator.isOrdering && 1 < tokens.length then
    failAt (some source) (.severalValues operator tokens.length)
  else .ok (tokens.map interpret)

/-- The clause of an item `key: raw`; `source` is the path of the item's mapping. -/
def read? (operator : FilterOperator) (source : String) (key raw : Value) :
    Checked FilterClause := do
  let path ← FieldPath.readValue? key (some source)
  let at_ := source ++ "." ++ key.plain
  if raw.isMap then failAt (some at_) (.unknownOperator key.plain)
  else
    let values ← readValues? operator at_ raw
    .ok ⟨operator, path, values⟩

end FilterClause

namespace Filter

/-- The clauses of the items below one operator. -/
def readItems? (operator : FilterOperator) (source : String) :
    List (Value × Value) → Checked (List FilterClause)
  | [] => .ok []
  | (key, raw) :: rest => do
    let clause ← FilterClause.read? operator source key raw
    let more ← readItems? operator source rest
    .ok (clause :: more)

/-- The clauses of one entry: an operator with its items, or an equality. -/
def readEntry? (key raw : Value) : Checked (List FilterClause) :=
  match key with
  | .text name =>
    match FilterOperator.reserved? name with
    | some operator =>
      let source := "filter." ++ name
      match raw with
      | .map items => readItems? operator source items
      | v => failAt (some source) (.operatorWithoutFields name v.kind)
    | none => (FilterClause.read? .eq "filter" key raw).map fun c => [c]
  | key => (FilterClause.read? .eq "filter" key raw).map fun c => [c]

/-- The clauses of the entries, in order. -/
def readEntries? : List (Value × Value) → Checked (List FilterClause)
  | [] => .ok []
  | (key, raw) :: rest => do
    let clauses ← readEntry? key raw
    let more ← readEntries? rest
    .ok (clauses ++ more)

/-- The clauses of the filter parameter. -/
def read? (spec : Value) : Checked (List FilterClause) :=
  if spec.isEmpty then .ok []
  else
    match spec with
    | .map entries => readEntries? entries
    | v => failAt (some "filter") (.notFilter v.kind)

end Filter

end ResourceQuery
