import ResourceQuery.Include.Load
import ResourceQuery.Statement.Meaning

/-!
# Loaded records

The records of one answer and the related records loaded with them. A row of the store is one
record, however it is reached.

* `RecordId`, `LoadedRecord`, `Session`: records by their keys, with the fields and relations that
  are loaded;
* `Session.visit`: more records, of which some columns are read;
* `relatedRows`: the rows that a relation leads to, in its order;
* `Session.asks`: whether a load looks for the related records of a record;
* `RelationLoad.run`: the related records of some records, and those behind them;
* `Session.view`: a record with everything loaded, as a tree.
-/

namespace ResourceQuery

/-- What tells records apart. -/
structure RecordId where
  entity : String
  key : List Cell
deriving DecidableEq, Repr, Inhabited

/-- What a relation of a record leads to. -/
inductive Related
  | one (id : Option RecordId)
  | many (ids : List RecordId)
deriving Inhabited

/-- A record and what is loaded of it. -/
structure LoadedRecord where
  entity : Entity
  row : StoredRow
  /-- The fields that are loaded. -/
  fields : List String
  relations : List (String × Related) := []
deriving Inhabited

namespace LoadedRecord

/-- The values of the loaded fields. -/
def values (r : LoadedRecord) : List (String × Value) :=
  (r.entity.columns.filter (·.field ∈ r.fields)).map fun c =>
    (c.field, (r.row.get c.name).toValue c.type)

/-- The names of the fields and relations that are not loaded. -/
def missing (r : LoadedRecord) : List String :=
  (r.entity.columns.map (·.field)).filter (· ∉ r.fields) ++
    (r.entity.relationships.map (·.name)).filter fun name => !r.relations.any (·.1 == name)

end LoadedRecord

/-- The records of an answer. -/
structure Session where
  records : List (RecordId × LoadedRecord) := []
deriving Inhabited

/-- A record reached by a load, and whether the load is the first to reach it. -/
structure Visit where
  id : RecordId
  isNew : Bool
deriving DecidableEq, Repr, Inhabited

/-- What tells a row of an entity apart. -/
def Entity.recordId (e : Entity) (row : StoredRow) : RecordId :=
  ⟨e.name, e.keyColumns.map fun c => row.get c.name⟩

namespace Session

/-- A record. -/
def get? (s : Session) (id : RecordId) : Option LoadedRecord :=
  (s.records.find? (·.1 == id)).map (·.2)

/-- A record changed. -/
def modify (s : Session) (id : RecordId) (change : LoadedRecord → LoadedRecord) : Session :=
  ⟨s.records.map fun (other, r) => if other = id then (other, change r) else (other, r)⟩

/-- One more row of an entity, of which some columns are read. A record keeps the fields that it
has. -/
def visitRow (s : Session) (e : Entity) (columns : List Column) (row : StoredRow) :
    Session × Visit :=
  let id := e.recordId row
  let fields := columns.map (·.field)
  match s.get? id with
  | none => (⟨s.records ++ [(id, ⟨e, row, fields, []⟩)]⟩, ⟨id, true⟩)
  | some _ =>
    (s.modify id fun r => { r with fields := r.fields ++ fields.filter (· ∉ r.fields) },
      ⟨id, false⟩)

/-- More rows of an entity, of which some columns are read, and the records that they visit. -/
def visit (s : Session) (e : Entity) (columns : List Column) :
    List StoredRow → Session × List Visit
  | [] => (s, [])
  | row :: rest =>
    let (s, first) := s.visitRow e columns row
    let (s, others) := s.visit e columns rest
    (s, first :: others)

/-- A relation of a visited record set. A record that was reached before keeps a relation that is
loaded already. -/
def link (s : Session) (visit : Visit) (name : String) (related : Related) : Session :=
  s.modify visit.id fun r =>
    if !visit.isNew && r.relations.any (·.1 == name) then r
    else { r with relations := r.relations.filter (·.1 != name) ++ [(name, related)] }

end Session

/-- The rows that a relation of a record leads to and that some conditions hold of, in the order of
the relation. -/
def relatedRows (db : Database) (r : Relationship) (owner target : Entity)
    (criteria : List Predicate) (row : StoredRow) : List StoredRow :=
  let far := target.reachAs (.hop 0 1)
  let hop := r.hop owner.reach far (.hopLink 0 1)
  let found := (hop.inner db [(owner.reach.source, some row)]).filterMap (·.row? far.source)
  let kept := found.filter fun x => criteria.all (·.holds db [(target.reach.source, some x)])
  sortByKeys (r.order.map fun _ => false) (fun x => r.order.map x.get) kept

/-- The related records of a relation to one record or to many. -/
def Relationship.related (r : Relationship) (target : Entity) (rows : List StoredRow) : Related :=
  let ids := rows.map target.recordId
  if r.toMany then .many ids else .one ids.head?

/-- Whether a relation leads to the key of its target, so that a row of the owner names the related
record. -/
def Relationship.namesKey (r : Relationship) (target : Entity) : Bool :=
  match r.link with
  | .direct pairs _ => pairs.map (·.far) == target.keyColumns.map (·.name)
  | .through .. => false

/-- Whether a load has to look for the related records of a visit: there may be one only if the
row names it, and otherwise the relation is looked for once. -/
def Session.asks (s : Session) (r : Relationship) (owner target : Entity) (v : Visit) : Bool :=
  match s.get? v.id with
  | none => false
  | some x =>
    if r.namesKey target then
      (r.nearColumns owner target).all fun (_, name) => !(x.row.get name).isNull
    else v.isNew || !x.relations.any (·.1 == r.name)

/-- What the store refuses about some conditions: a value that it cannot hold. -/
def criteriaFault? (criteria : List Predicate) : Option StoreFault :=
  (criteria.flatMap fun p => Statement.values (p.pieces [] .alone)).findSome? (·.storeFault?)

/-- The check of the conditions of a load, which takes place when the load looks for records. -/
def checkCriteria (asked : List Visit) (criteria : List Predicate) : Except StoreFault Unit :=
  if asked.isEmpty then .ok ()
  else
    match criteriaFault? criteria with
    | some fault => .error fault
    | none => .ok ()

namespace RelationLoad

mutual

/-- The related records of some records. The conditions of a load hold for all records of the same
entity behind it too. -/
def run (db : Database) (inherited : List (String × Predicate)) (visits : List Visit)
    (s : Session) : RelationLoad → Except StoreFault Session
  | mk r owner target criteria restriction children => do
    let inherited := inherited ++ criteria.map fun p => (target.name, p)
    let active := (inherited.filter (·.1 == target.name)).map (·.2)
    let asked := visits.filter (s.asks r owner target)
    checkCriteria asked active
    let found := visits.map fun v =>
      (v, if v ∈ asked then
          ((s.get? v.id).map fun x => relatedRows db r owner target active x.row).getD []
        else [])
    let rows := (found.flatMap (·.2)).eraseDups
    let (s, reached) := s.visit target (restriction.getD target.columns) rows
    let s ← runAll db inherited reached s children
    .ok (found.foldl (fun s (v, rows) => s.link v r.name (r.related target rows)) s)

/-- The related records of some records, load by load. -/
def runAll (db : Database) (inherited : List (String × Predicate)) (visits : List Visit)
    (s : Session) : List RelationLoad → Except StoreFault Session
  | [] => .ok s
  | load :: rest => do
    let s ← run db inherited visits s load
    runAll db inherited visits s rest

end

end RelationLoad

/-! ## Records as trees -/

/-- A record with everything loaded. -/
inductive RecordView
  /-- A record that the tree has further up. -/
  | reference (entity : String) (key : List Value)
  | record (entity : String) (fields : List (String × Value))
      (one : List (String × Option RecordView)) (many : List (String × List RecordView))
      (missing : List String)
deriving Inhabited

namespace LoadedRecord

/-- The relations to one record. -/
def toOne (r : LoadedRecord) : List (String × Option RecordId) :=
  r.relations.filterMap fun
    | (name, .one id) => some (name, id)
    | _ => none

/-- The relations to many records. -/
def toMany (r : LoadedRecord) : List (String × List RecordId) :=
  r.relations.filterMap fun
    | (name, .many ids) => some (name, ids)
    | _ => none

/-- The key of a record as values. -/
def keyValues (r : LoadedRecord) : List Value :=
  r.entity.keyColumns.map fun c => (r.row.get c.name).toValue c.type

end LoadedRecord

namespace Session

/-- A record as a tree. `above` are the records further up; a tree is no deeper than there are
records. -/
def viewFrom (s : Session) (depth : Nat) (above : List RecordId) (id : RecordId) :
    Option RecordView :=
  match s.get? id with
  | none => none
  | some r =>
    match depth with
    | 0 => some (.reference r.entity.name r.keyValues)
    | depth + 1 =>
      if id ∈ above then some (.reference r.entity.name r.keyValues)
      else
        let inner := s.viewFrom depth (id :: above)
        some (.record r.entity.name r.values
          (r.toOne.map fun (name, id) => (name, id.bind inner))
          (r.toMany.map fun (name, ids) => (name, ids.filterMap inner))
          r.missing)

/-- A record as a tree. -/
def view (s : Session) (id : RecordId) : Option RecordView :=
  s.viewFrom (s.records.length + 1) [] id

end Session

end ResourceQuery
