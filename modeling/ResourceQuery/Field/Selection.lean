import ResourceQuery.Sort.Order

/-!
# Fields as selections

What the fields of a request select from an entity.

* `Entity.restrictedTo`: the columns of some fields, with those of the key;
* `isRowMode`: whether the answer is rows of values instead of records;
* `FieldCompiler.rowTerms?`: the terms of such rows;
* `FieldCompiler.restriction?`, `FieldCompiler.columns?`: the columns of records, or none when
  nothing restricts them;
* `FieldCompiler.group?`: what rows are grouped by.
-/

namespace ResourceQuery

/-- The columns of some fields and of the key, in the order of the table. -/
def Entity.restrictedTo (e : Entity) (fields : List String) : List Column :=
  e.columns.filter fun c => c.field ∈ e.key ∨ c.field ∈ fields

/-- Whether the answer is rows of values: when there is a group, or an aggregate is selected. -/
def isRowMode (fields group : List SelectedField) : Bool :=
  !group.isEmpty || fields.any (·.isAggregate)

/-- What is fixed while fields are compiled. -/
structure FieldCompiler where
  schema : Schema
  naming : Naming

namespace FieldCompiler

/-- A selected field as a term with its label. Aggregates are not renamed. -/
def selectedTerm? (k : FieldCompiler) (e : Entity) (f : SelectedField) :
    Except QueryError SelectedTerm :=
  if f.isAggregate then (f.term? k.schema e.reach).map fun t => ⟨t, f.label⟩
  else
    let name := k.naming.toStorage f.name
    do
      let field ← e.reach.field? k.schema name
      .ok ⟨.plain (← field.shown?), name⟩

/-- The terms of rows: the fields, or the group when there are no fields. -/
def rowTerms? (k : FieldCompiler) (e : Entity) (fields group : List SelectedField) :
    Except QueryError (List SelectedTerm) :=
  (if fields.isEmpty then group else fields).mapM (k.selectedTerm? e)

/-- The labels of the aggregates among some fields. -/
def aggregateLabels (fields group : List SelectedField) : List String :=
  (((if fields.isEmpty then group else fields).filter (·.isAggregate)).map (·.label)).eraseDups

/-- The stored names of some fields, apart from relations and, where asked for, aggregates. -/
def fieldNames? (k : FieldCompiler) (e : Entity) (skipAggregates : Bool) :
    List SelectedField → Except QueryError (List String)
  | [] => .ok []
  | f :: rest =>
    let name := k.naming.toStorage f.name
    if skipAggregates && f.isAggregate || e.isRelationship name then
      k.fieldNames? e skipAggregates rest
    else do
      let _ ← e.reach.field? k.schema name
      .ok (name :: (← k.fieldNames? e skipAggregates rest))

/-- The columns of named fields, with those to keep in any case. When nothing is named and nothing
kept there is no restriction, and class attributes cannot be named. -/
def restriction? (e : Entity) (named kept : List String) :
    Except QueryError (Option (List Column)) :=
  if (named ++ kept).isEmpty then .ok none
  else if named.all fun name => (e.column? name).isSome then
    .ok (some (e.restrictedTo (named ++ kept)))
  else .error .attributeOutsideStatements

/-- The columns of records that some fields name, with those to keep in any case. Without fields
there is no restriction. -/
def columns? (k : FieldCompiler) (e : Entity) (fields : List SelectedField) (kept : List String) :
    Except QueryError (Option (List Column)) :=
  if fields.isEmpty then .ok none
  else do restriction? e (← k.fieldNames? e false fields) kept

/-- What a field groups rows by. An aggregate is refused. -/
def groupOperands? (k : FieldCompiler) (e : Entity) (f : SelectedField) :
    Except QueryError (List Operand) :=
  if f.isAggregate then .error (.parameter ⟨.groupByAggregate f.name, some "group"⟩)
  else do (← e.reach.field? k.schema (k.naming.toStorage f.name)).groupOperands? e.reach

/-- What rows are grouped by. -/
def group? (k : FieldCompiler) (e : Entity) (group : List SelectedField) :
    Except QueryError (List Operand) := do
  .ok (← group.mapM (k.groupOperands? e)).flatten

end FieldCompiler

end ResourceQuery
