/-!
# Filter operators

The closed set of operators that a filter may use.

* `FilterOperator`: the operators;
* `FilterOperator.name`, `FilterOperator.ofName?`: their names in a request;
* `FilterOperator.isOrdering`: the operators that compare with a single value;
* `FilterOperator.reserved?`: the names that a filter key takes for an operator and not for a
  field. Equality is not among them: it is what a field key means.
-/

namespace ResourceQuery

/-- An operator of a filter. -/
inductive FilterOperator
  | eq | like | not | lt | lte | gt | gte
deriving DecidableEq, Repr, Inhabited

namespace FilterOperator

/-- The operators in their order. -/
def all : List FilterOperator := [eq, like, not, lt, lte, gt, gte]

/-- The name of an operator in a request. -/
def name : FilterOperator → String
  | eq => "eq"
  | like => "like"
  | not => "not"
  | lt => "lt"
  | lte => "lte"
  | gt => "gt"
  | gte => "gte"

/-- The operator of a name. -/
def ofName? (text : String) : Option FilterOperator := all.find? (·.name == text)

/-- Whether an operator compares by order, with a single value. -/
def isOrdering : FilterOperator → Bool
  | lt | lte | gt | gte => true
  | _ => false

/-- The operator that a filter key stands for, if it is not a field. -/
def reserved? (text : String) : Option FilterOperator :=
  (ofName? text).filter (· ≠ eq)

/-- The operators that a filter key may stand for, by name. -/
def reservedNames : List String := ["gt", "gte", "like", "lt", "lte", "not"]

end FilterOperator

end ResourceQuery
