import ResourceQuery.Resolution

/-!
# Filter operators as conditions

The condition that an operator and some values make of a field.

* `FilterOperator.condition?`: the condition of an operator;
* `equals?`: the condition of one value, or of its absence;
* `FilterRegistry`: the operators that are in use.

Values of `eq` and `like` are alternatives. `not` keeps what equals none of its values: a missing
value is kept unless null is one of them.
-/

namespace ResourceQuery

namespace ClassAttribute

/-- Whether a class attribute equals a value. An object equals nothing but itself. -/
def equals : ClassAttribute → Value → Bool
  | text s, .text t => s == t
  | _, _ => false

/-- Whether the order of two texts satisfies a comparison. -/
def ordersTexts (comparison : Comparison) (s t : String) : Bool :=
  match comparison with
  | .lt => s < t
  | .le => s ≤ t
  | .gt => t < s
  | .ge => t ≤ s
  | _ => false

/-- A comparison of a class attribute with a value by order: texts have one with texts. -/
def orders? (a : ClassAttribute) (comparison : Comparison) (v : Value) : Except QueryError Bool :=
  match a, v with
  | text s, .text t => .ok (ordersTexts comparison s t)
  | _, _ => .error .attributeWithoutOrder

/-- A comparison of a class attribute with a value. It has no patterns. -/
def compare? (a : ClassAttribute) (comparison : Comparison) (v : Value) : Except QueryError Bool :=
  match comparison with
  | .eq => .ok (a.equals v)
  | .ne => .ok !(a.equals v)
  | .like => .error .attributeWithoutOperation
  | comparison => a.orders? comparison v

end ClassAttribute

namespace ResolvedField

/-- The condition that the field has no value. -/
def isNull? : ResolvedField → Except QueryError Predicate
  | column c => .ok (.isNull c)
  | relation .. => .error .relationWithoutOperation
  | ofClass _ => .error .attributeWithoutOperation

/-- The condition that the field has a value. -/
def notNull? : ResolvedField → Except QueryError Predicate
  | column c => .ok (.notNull c)
  | relation .. => .error .relationWithoutOperation
  | ofClass _ => .error .attributeWithoutOperation

/-- The condition that the field has a value, or has none when the value is null. -/
def equals? (f : ResolvedField) (v : Value) : Except QueryError Predicate :=
  if v.isNull then f.isNull?
  else
    match f with
    | column c => .ok (.compare c .eq v)
    | relation r _ => .error (if r.toMany then .collectionCompared else .relatedCompared)
    | ofClass a => .ok (.ofTruth (a.equals v))

/-- The condition that the field has another value than one that is not null. -/
def differs? (f : ResolvedField) (v : Value) : Except QueryError Predicate :=
  match f with
  | column c => .ok (.compare c .ne v)
  | relation r _ => .error (if r.toMany then .collectionCompared else .relatedToldApart)
  | ofClass a => .ok (.ofTruth !(a.equals v))

/-- The condition that the text of the field holds that of a value, or that the field has no value
when the value is null. -/
def contains? (f : ResolvedField) (v : Value) : Except QueryError Predicate := do
  let tested ← f.argument?
  if v.isNull then f.isNull?
  else .ok (.contains tested (f.type ≠ .text) v.plain)

/-- The condition that the field stands in an order to a value. Null and truth values have no
order. -/
def ordered? (comparison : Comparison) (f : ResolvedField) (v : Value) :
    Except QueryError Predicate :=
  match f, v with
  | relation .., _ => .error .relationWithoutOperation
  | ofClass a, v => (a.orders? comparison v).map .ofTruth
  | column _, .null => .error .orderWithoutValue
  | column _, .bool _ => .error .orderWithoutValue
  | column c, v => .ok (.compare c comparison v)

/-- A comparison of the field with a value, null included. -/
def compare? (f : ResolvedField) (comparison : Comparison) (v : Value) :
    Except QueryError Predicate :=
  match f, comparison with
  | ofClass a, comparison => (a.compare? comparison v).map .ofTruth
  | f, .eq => f.equals? v
  | f, .ne => if v.isNull then f.notNull? else f.differs? v
  | f, comparison => f.ordered? comparison v

end ResolvedField

namespace FilterOperator

/-- The condition of `not`: no value is equal, and there is a value when null is excluded. -/
def noneOf? (f : ResolvedField) (values : List Value) : Except QueryError Predicate := do
  let others ← (values.filter (!·.isNull)).mapM f.differs?
  if values.any (·.isNull) then
    let present ← f.notNull?
    .ok (.allOf (present :: others))
  else
    let absent ← f.isNull?
    .ok (.either absent (.allOf others))

/-- The condition that all values are in an order to the field. -/
def allOrdered? (comparison : Comparison) (f : ResolvedField) (values : List Value) :
    Except QueryError Predicate :=
  (values.mapM (f.ordered? comparison)).map .allOf

/-- The condition of an operator on a field. -/
def condition? (operator : FilterOperator) (f : ResolvedField) (values : List Value) :
    Except QueryError Predicate :=
  match operator with
  | eq => (values.mapM f.equals?).map .anyOf
  | like => (values.mapM f.contains?).map .anyOf
  | not => noneOf? f values
  | lt => allOrdered? .lt f values
  | lte => allOrdered? .le f values
  | gt => allOrdered? .gt f values
  | gte => allOrdered? .ge f values

end FilterOperator

/-- The operators that are in use. -/
structure FilterRegistry where
  operators : List FilterOperator
deriving DecidableEq, Repr, Inhabited

namespace FilterRegistry

/-- No operator. -/
def empty : FilterRegistry := ⟨[]⟩

/-- One more operator. -/
def register (r : FilterRegistry) (operator : FilterOperator) : FilterRegistry :=
  if operator ∈ r.operators then r else ⟨r.operators ++ [operator]⟩

/-- Some operators, in order. -/
def ofList (operators : List FilterOperator) : FilterRegistry := operators.foldl register empty

/-- Every operator. -/
def standard : FilterRegistry := ofList FilterOperator.all

/-- An operator, if it is in use. -/
def get? (r : FilterRegistry) (operator : FilterOperator) : Option FilterOperator :=
  if operator ∈ r.operators then some operator else none

/-- The names of the operators in use, in order. -/
def names (r : FilterRegistry) : List String :=
  (r.operators.map (·.name)).mergeSort (· ≤ ·)

/-- The condition of an operator on a field, if the operator is in use. -/
def condition? (r : FilterRegistry) (operator : FilterOperator) (f : ResolvedField)
    (values : List Value) : Except QueryError Predicate :=
  match r.get? operator with
  | some operator => operator.condition? f values
  | none => .error (.unsupportedOperator operator)

end FilterRegistry

end ResourceQuery
