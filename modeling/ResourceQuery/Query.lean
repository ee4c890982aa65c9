import ResourceQuery.Parameters
import ResourceQuery.Include.Load
import ResourceQuery.Statement

/-!
# Queries

A query for the records of one entity, as a request asks for them.

* `Query`: an entity and what is fixed for all requests;
* `Request`: the parameters of one request;
* `Query.isSingle`: whether a request is for one record;
* `CompiledQuery`, `Query.compile?`: the statements that answer a request.

Everything is read before anything is looked up: a parameter that is not understood is reported
before a name that is not known. The statement is built in a fixed order: base criteria, included
relations, filter, group, order, fields, page.
-/

namespace ResourceQuery

/-- An entity and what is fixed for all requests. -/
structure Query where
  schema : Schema
  entity : Entity
  naming : Naming
  pagination : Option PageDefault := none
  registry : FilterRegistry := .standard
  /-- The resource type of the entity, when it is not that of its table. -/
  type : String := ""

/-- The parameters of one request. -/
structure Request where
  params : Value := .null
  /-- Whether the request is for one record; undecided when it is not given. -/
  single : Option Bool := none
  /-- Base criteria by requested names. -/
  criteria : List (String × Value) := []
  /-- The resource type whose fields are those of the records, when it is not that of the query. -/
  type : String := ""

/-- What the parameters of a request say. -/
structure ReadRequest where
  clauses : List FilterClause
  sortKeys : List SortKey
  projections : List (String × List SelectedField)
  group : List SelectedField
  includes : List IncludedPath
  page : Option PageRequest

/-- The parameters of a request, each of them read. -/
def Parameters.readRequest? (p : Parameters) : Except QueryError ReadRequest := do
  let clauses ← (Filter.read? p.filterValue).lift
  let sortKeys ← (SortKeys.read? (Parameters.textsValue p.sort)).lift
  let projections ← Fields.read? p.fieldsValue
  let group ← (Group.read? (Parameters.textsValue p.group)).lift
  let includes ← (Include.read? (.list p.includes)).lift
  .ok ⟨clauses, sortKeys, projections, group, includes, p.page⟩

/-- The statements that answer a request. -/
structure CompiledQuery where
  statement : Statement
  /-- The statement whose rows are counted, when they are. -/
  counted : Option Statement
  /-- The related records to load with those of the statement. -/
  loads : List RelationLoad
  /-- Whether only some columns of the records are read. -/
  isRestricted : Bool
  window : Option PageWindow
  single : Bool
  rowMode : Bool
  aggregateLabels : List String

namespace Query

/-- The resource type of the entity. -/
def resourceType (q : Query) : String := if q.type.isEmpty then q.entity.resourceType else q.type

/-- Whether a request is for one record: when it says so, and otherwise when its base criteria give
every field of the key. -/
def isSingle (q : Query) (single : Option Bool) (criteria : List (String × Value)) : Bool :=
  match single with
  | some b => b
  | none =>
    !criteria.isEmpty &&
      q.entity.key.all (· ∈ criteria.map fun (name, _) => q.naming.toStorage name)

/-- The compiler of filters. -/
def filters (q : Query) : FilterCompiler := ⟨q.schema, q.naming, q.registry⟩

/-- The compiler of sort keys. -/
def sorts (q : Query) : SortCompiler := ⟨q.schema, q.naming⟩

/-- The compiler of fields. -/
def fields (q : Query) : FieldCompiler := ⟨q.schema, q.naming⟩

/-- The compiler of included relations. -/
def includes (q : Query) (projections : List (String × List SelectedField)) : IncludeCompiler :=
  ⟨q.schema, q.naming, projections⟩

/-- What is selected, and whether it restricts the columns of records. -/
def selection? (q : Query) (rowMode : Bool) (fields group : List SelectedField)
    (loader : IncludeCompiler) (tree : List IncludeNode) :
    Except QueryError (Selection × Bool) := do
  if rowMode then
    .ok (.rows (← q.fields.rowTerms? q.entity fields group), false)
  else
    let kept ← if fields.isEmpty then .ok [] else loader.ownerFields? q.entity tree
    match ← q.fields.columns? q.entity fields kept with
    | some columns => .ok (.records columns, true)
    | none => .ok (.records q.entity.columns, false)

/-- The statement of a request without a page, its loads, and whether it restricts the columns of
records. -/
def statement? (q : Query) (criteria : List (String × Value)) (r : ReadRequest)
    (fields : List SelectedField) : Except QueryError (Statement × List RelationLoad × Bool) := do
  let rowMode := isRowMode fields r.group
  let base ← q.filters.criteria? q.entity.reach criteria
  let loader := q.includes r.projections
  let tree := IncludeTree.ofPaths r.includes
  let loads ← if rowMode then .ok [] else loader.loads? q.entity tree
  let conditions ← q.filters.filter? q.entity r.clauses
  let group ← q.fields.group? q.entity r.group
  let (joins, order) ← q.sorts.order? q.entity r.sortKeys
  let (selection, isRestricted) ← q.selection? rowMode fields r.group loader tree
  .ok (⟨q.entity, selection, joins, base ++ conditions, group, order, none, none⟩, loads,
    isRestricted)

/-- A statement with a page. An offset of zero is none. -/
def paged (s : Statement) (window : Option PageWindow) : Statement :=
  match window with
  | none => s
  | some w => { s with limit := w.limit, offset := if w.offset = 0 then none else some w.offset }

/-- The statements that answer a request. -/
def compile? (q : Query) (request : Request) : Except QueryError CompiledQuery := do
  let parameters ← (Parameters.parse request.params).lift
  let r ← parameters.readRequest?
  let single := q.isSingle request.single request.criteria
  let window := if single then none else PageWindow.resolve? q.pagination r.page
  let type := if request.type.isEmpty then q.resourceType else request.type
  let fields := Fields.ofType r.projections type
  let rowMode := isRowMode fields r.group
  let (statement, loads, isRestricted) ← q.statement? request.criteria r fields
  let counted := if (window.bind (·.limit)).isSome then some statement else none
  let statement := if single then { statement with limit := some 1 } else paged statement window
  let labels := if rowMode then FieldCompiler.aggregateLabels fields r.group else []
  .ok ⟨statement, counted, loads, isRestricted, window, single, rowMode, labels⟩

end Query

end ResourceQuery
