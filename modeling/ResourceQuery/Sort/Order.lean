import ResourceQuery.Sort
import ResourceQuery.Sort.JoinCache

/-!
# Sort keys as orders

The order that sort keys make of the rows of an entity.

* `SelectedField.term?`: an aggregate as a term;
* `SortCompiler`: what is fixed while sort keys are compiled;
* `SortCompiler.crossesCollection?`: whether a path leads through a relation to many;
* `SortCompiler.collectionKey?`: the least or greatest value over the related rows of such a path;
* `SortCompiler.order?`: the joins and the order of some keys.
-/

namespace ResourceQuery

/-- An aggregate as a term of an entity. The argument is a stored name, and a star stands for the
rows themselves. -/
def SelectedField.term? (schema : Schema) (r : Reach) (f : SelectedField) :
    Except QueryError Term :=
  match f.aggregate with
  | none => .error (.parameter ⟨.notAggregate f.name, some "fields"⟩)
  | some (function, argument) =>
    if argument = "*" then .ok .countAll
    else do
      let field ← r.field? schema argument
      .ok (.aggregate function (← field.argument?))

/-- What is fixed while sort keys are compiled. -/
structure SortCompiler where
  schema : Schema
  naming : Naming

namespace SortCompiler

/-- Whether a path of relations leads through a relation to many. Relations after it are not
looked at. -/
def crossesCollection? (k : SortCompiler) (e : Entity) : List String → Except QueryError Bool
  | [] => .ok false
  | name :: rest => do
    let (relationship, target) ← e.reach.related? k.schema (k.naming.toStorage name)
    if relationship.toMany then .ok true else k.crossesCollection? target rest

/-- The steps along a path of relations, and the reading at its end. -/
def hops? (k : SortCompiler) (index depth : Nat) (current : Reach) :
    List String → Except QueryError (List Hop × Reach)
  | [] => .ok ([], current)
  | name :: rest => do
    let (relationship, target) ← current.related? k.schema (k.naming.toStorage name)
    let reading := target.reachAs (.hop index (depth + 1))
    let hop := relationship.hop current reading (.hopLink index (depth + 1))
    let (hops, last) ← k.hops? index (depth + 1) reading rest
    .ok (hop :: hops, last)

/-- The key of a path that leads through a relation to many. -/
def collectionKey? (k : SortCompiler) (e : Entity) (index : Nat) (key : SortKey) :
    Except QueryError OrderKey := do
  let root := e.reachAs (.hop index 0)
  let (hops, last) ← k.hops? index 0 root key.path.relations
  let field ← last.field? k.schema (k.naming.toStorage key.path.field)
  let sameKey := e.keyColumns.map fun c => ⟨c.at_ root.source, c.at_ e.reach.source⟩
  .ok (.extreme key.descending root.source hops (← field.argument?) sameKey)

/-- A field as a key to order by. Only a column has an order. -/
def fieldKey? (f : ResolvedField) : Except QueryError OrderKey :=
  match f with
  | .column c => .ok (.term (.plain (.column c)))
  | .relation .. => .error .relationWithoutOperation
  | .ofClass _ => .error .attributeWithoutOperation

/-- A key on a field of the entity itself, or on an aggregate of it. -/
def localKey? (k : SortCompiler) (e : Entity) (name : String) : Except QueryError OrderKey := do
  let field := SelectedField.ofName name
  if field.isAggregate then (field.term? k.schema e.reach).map .term
  else fieldKey? (← e.reach.field? k.schema (k.naming.toStorage name))

/-- The joins that a key still needs, and the key. -/
def key? (k : SortCompiler) (e : Entity) (index : Nat) (c : JoinCache) (key : SortKey) :
    Except QueryError (JoinCache × List Join × OrderKey) :=
  if key.path.isLocal then (k.localKey? e key.path.field).map fun o => (c, [], o)
  else do
    if ← k.crossesCollection? e key.path.relations then
      .ok (c, [], ← k.collectionKey? e index key)
    else
      let (c, result) := c.path? k.schema k.naming e key.path.relations
      let (joins, last) ← result
      .ok (c, joins, ← fieldKey? (← last.field? k.schema (k.naming.toStorage key.path.field)))

/-- The joins and the terms of the keys from `index` on. -/
def keys? (k : SortCompiler) (e : Entity) (index : Nat) (c : JoinCache) :
    List SortKey → Except QueryError (List Join × List OrderTerm)
  | [] => .ok ([], [])
  | key :: rest => do
    let (c, joins, orderKey) ← k.key? e index c key
    let (more, terms) ← k.keys? e (index + 1) c rest
    .ok (joins ++ more, ⟨orderKey, key.descending⟩ :: terms)

/-- The joins and the order of some keys. -/
def order? (k : SortCompiler) (e : Entity) (keys : List SortKey) :
    Except QueryError (List Join × List OrderTerm) :=
  k.keys? e 0 {} keys

end SortCompiler

end ResourceQuery
