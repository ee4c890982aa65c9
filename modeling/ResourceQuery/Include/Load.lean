import ResourceQuery.Include.Tree
import ResourceQuery.Filter.Condition
import ResourceQuery.Field.Selection

/-!
# Loads of related records

What a tree of included relations loads: for every node the relation, the conditions on the related
records, and the columns of theirs that are read.

* `RelationQuery`: the conditions that a refinement collects;
* `RelationLoad`: what one node loads;
* `IncludeCompiler.loads?`: the loads of a tree;
* `IncludeCompiler.ownerFields?`: the fields of the owner that its relations read;
* `RelationLoad.merged`: the loads of which a relation has one.
-/

namespace ResourceQuery

/-- The conditions that a refinement collects for the records of an entity. -/
structure RelationQuery where
  entity : Entity
  criteria : List Predicate := []
deriving Inhabited

namespace RelationQuery

/-- The conditions with those of some equalities. The ones before an unknown field stay. -/
def addEqualities (k : FilterCompiler) (q : RelationQuery) :
    List (String × Value) → RelationQuery × Except QueryError Unit
  | [] => (q, .ok ())
  | entry :: rest =>
    match k.criteria? q.entity.reach [entry] with
    | .ok criteria => addEqualities k { q with criteria := q.criteria ++ criteria } rest
    | .error e => (q, .error e)

/-- A comparison of a stored field with a value as it is. -/
def comparison? (schema : Schema) (e : Entity) (field : String) (comparison : Comparison)
    (v : Value) : Except QueryError Predicate := do
  let field ← (e.reach.field? schema field).mapError fun _ => .noSuchField
  field.compare? comparison v

/-- The conditions after one more step. -/
def step (k : FilterCompiler) (q : RelationQuery) :
    RefineStep → RelationQuery × Except QueryError Unit
  | .filterBy entries => q.addEqualities k entries
  | .compare field comparison v =>
    match comparison? k.schema q.entity field comparison v with
    | .ok p => ({ q with criteria := q.criteria ++ [p] }, .ok ())
    | .error e => (q, .error e)

/-- The conditions after some steps. -/
def run? (k : FilterCompiler) (q : RelationQuery) :
    List RefineStep → Except QueryError RelationQuery
  | [] => .ok q
  | step :: rest =>
    match q.step k step with
    | (q, .ok ()) => q.run? k rest
    | (_, .error e) => .error e

end RelationQuery

/-- What one node of a tree loads. The columns of the related records are all that they have, unless
they are restricted. -/
inductive RelationLoad
  | mk (relationship : Relationship) (owner target : Entity) (criteria : List Predicate)
      (restriction : Option (List Column)) (children : List RelationLoad)
deriving Inhabited

namespace RelationLoad

/-- The relation. -/
def relationship : RelationLoad → Relationship
  | mk r .. => r

/-- The entity of the related records. -/
def target : RelationLoad → Entity
  | mk _ _ target .. => target

/-- The conditions on the related records. -/
def criteria : RelationLoad → List Predicate
  | mk _ _ _ criteria .. => criteria

/-- The columns that the reading of the related records is restricted to. -/
def restriction : RelationLoad → Option (List Column)
  | mk _ _ _ _ restriction _ => restriction

/-- The columns of the related records that are read. -/
def columns (load : RelationLoad) : List Column := load.restriction.getD load.target.columns

/-- The loads behind this one. -/
def children : RelationLoad → List RelationLoad
  | mk _ _ _ _ _ children => children

/-- The loads with that of a relation replaced; a relation that has none gets one at the end. -/
def replace (load : RelationLoad) : List RelationLoad → List RelationLoad
  | [] => [load]
  | other :: rest =>
    if other.relationship.name = load.relationship.name then load :: rest
    else other :: replace load rest

mutual

/-- The loads with one more. Of two loads of one relation the later one says what the related
records have to meet, the columns that either of them names are read, and what is behind either of
them is loaded. -/
def insert (loads : List RelationLoad) : RelationLoad → List RelationLoad
  | mk r owner target criteria restriction children =>
    let before := loads.find? (·.relationship.name = r.name)
    let restriction := (before.bind (·.restriction)).merge (· ++ ·) restriction
    let children := insertAll ((before.map (·.children)).getD []) children
    replace (mk r owner target criteria restriction children) loads

/-- The loads with some more. -/
def insertAll (loads : List RelationLoad) : List RelationLoad → List RelationLoad
  | [] => loads
  | load :: rest => insertAll (insert loads load) rest

end

/-- One load for every relation that has some. -/
def merged (loads : List RelationLoad) : List RelationLoad := insertAll [] loads

end RelationLoad

/-- What is fixed while included relations are compiled. -/
structure IncludeCompiler where
  schema : Schema
  naming : Naming
  projections : List (String × List SelectedField) := []

namespace IncludeCompiler

/-- The compiler of the conditions of refinements. -/
def filters (k : IncludeCompiler) : FilterCompiler := ⟨k.schema, k.naming, .standard⟩

/-- The compiler of fields. -/
def fields (k : IncludeCompiler) : FieldCompiler := ⟨k.schema, k.naming⟩

/-- The relation of a requested name and the entity it leads to. -/
def related? (k : IncludeCompiler) (e : Entity) (name : String) :
    Except QueryError (Relationship × Entity) :=
  e.reach.related? k.schema (k.naming.toStorage name)

/-- The fields of an entity that some of its relations read. -/
def ownerFields? (k : IncludeCompiler) (e : Entity) :
    List IncludeNode → Except QueryError (List String)
  | [] => .ok []
  | node :: rest => do
    let (r, target) ← k.related? e node.name
    .ok (e.fieldsOf (r.nearColumns e target) ++ (← k.ownerFields? e rest))

/-- The conditions of a refinement. -/
def criteria? (k : IncludeCompiler) (target : Entity) (refinement : Option Refinement) :
    Except QueryError (List Predicate) :=
  match refinement with
  | none => .ok []
  | some refinement => (RelationQuery.run? k.filters ⟨target, []⟩ refinement.steps).map (·.criteria)

/-- The columns that fields of the type of related records restrict these to. The columns that the
relation and the relations behind it read are kept. -/
def columns? (k : IncludeCompiler) (r : Relationship) (target : Entity)
    (children : List IncludeNode) : Except QueryError (Option (List Column)) := do
  let fields := Fields.ofType k.projections target.relatedType
  if fields.isEmpty then .ok none
  else do
    let named ← k.fields.fieldNames? target true fields
    let owned ← k.ownerFields? target children
    FieldCompiler.restriction? target named (target.fieldsOf (r.farColumns target) ++ owned)

mutual

/-- The load of a node. -/
def load? (k : IncludeCompiler) (e : Entity) : IncludeNode → Except QueryError RelationLoad
  | .mk name refinement children => do
    let (r, target) ← k.related? e name
    let criteria ← k.criteria? target refinement
    let inner ← loads? k target children
    let restriction ← k.columns? r target children
    .ok (.mk r e target criteria restriction inner)

/-- The loads of some nodes. -/
def loads? (k : IncludeCompiler) (e : Entity) :
    List IncludeNode → Except QueryError (List RelationLoad)
  | [] => .ok []
  | node :: rest => do
    let load ← load? k e node
    .ok (load :: (← loads? k e rest))

end

end IncludeCompiler

end ResourceQuery
