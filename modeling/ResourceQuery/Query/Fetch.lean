import ResourceQuery.Query.Refinement
import ResourceQuery.Collection
import ResourceQuery.Include.Session

/-!
# Answers

A request answered by a store.

* `Transform`: what is made of every record;
* `Answer`: one record, or a collection with its page, and the records loaded with them;
* `Store`: what answers statements, a database for instance;
* `Query.fetchFrom`, `Query.fetch?`: the answer of a store, and that of a database.

A store is asked at most twice, first for the count and then for the rows; the loads of related
records belong to the rows.
-/

namespace ResourceQuery

/-- One record of an answer. -/
inductive AnswerRecord
  | record (id : RecordId)
  | values (entries : List (String × Value))
  | value (v : Value)
  | nothing
deriving Inhabited

/-- One record if there is any, or a collection. -/
inductive Outcome
  | single (record : Option AnswerRecord)
  | collection (c : Collection AnswerRecord)

/-- The outcome of a request and the records loaded for it. -/
structure Answer where
  outcome : Outcome
  session : Session

/-- What answers statements, in a context that may keep more than the answers. -/
structure Store (m : Type → Type) where
  /-- How many rows the counting statement of a statement counts. -/
  count : Statement → m Nat
  /-- The rows of a statement, which have to be records when something is asked for that only
  records have. -/
  rows : (wantsRecords : Bool) → Statement → m (List AnswerRow)
  /-- The records of a session and those that some loads add to the visited ones. A relation that
  has several loads is loaded once. -/
  load : List RelationLoad → List Visit → Session → m Session

/-- Whether the rows of a statement are records. -/
def Statement.selectsRecords (s : Statement) : Bool :=
  match s.selection with
  | .records _ => true
  | .rows _ => false

/-- A database as a store. -/
def Database.store (db : Database) : Store (Except QueryError) where
  count s := (s.count db).mapError .store
  rows wantsRecords s :=
    if wantsRecords && !s.selectsRecords then .error .notExecutable
    else (s.run db).mapError .store
  load loads visits s :=
    (RelationLoad.runAll db [] visits s (RelationLoad.merged loads)).mapError .store

/-- What is made of every record of a session. It may fail. -/
abbrev Transform := Session → AnswerRecord → Except QueryError AnswerRecord

namespace Transform

/-- A loaded field of a record of an entity. -/
def field (name : String) : Transform := fun session r =>
  match r with
  | .record id =>
    match (session.get? id).bind fun x => (x.values.find? (·.1 == name)).map (·.2) with
    | some v => .ok (.value v)
    | none => .error .recordWithoutField
  | _ => .error .recordWithoutField

/-- The value of a key of a row. -/
def key (name : Value) : Transform := fun _ r =>
  match r, name with
  | .values entries, .text label =>
    match entries.find? (·.1 == label) with
    | some (_, v) => .ok (.value v)
    | none => .error .keyMissing
  | .values _, _ => .error .keyMissing
  | _, _ => .error .recordWithoutKeys

/-- The same value for every record. -/
def const (v : Value) : Transform := fun _ _ => .ok (.value v)

/-- What is made of all records; without a transform they stay as they are. -/
def resultAll? (session : Session) (transform : Option Transform) (records : List AnswerRecord) :
    Except QueryError (List AnswerRecord) :=
  match transform with
  | none => .ok records
  | some t => records.mapM (t session)

end Transform

namespace CompiledQuery

/-- The requested name of a key of a row. The labels of aggregates are not renamed. -/
def domainKey (c : CompiledQuery) (naming : Naming) (key : String) : String :=
  if key ∈ c.aggregateLabels then key else naming.toDomain key

/-- The values of a row by their requested names. -/
def domainRow (c : CompiledQuery) (naming : Naming) (entries : List (String × Value)) :
    List (String × Value) :=
  Input.ofEntries (entries.map fun (key, v) => (c.domainKey naming key, v))

/-- Records without those that came before. -/
def distinct (seen : List RecordId) : List AnswerRecord → List AnswerRecord
  | [] => []
  | .record id :: rest =>
    if id ∈ seen then distinct seen rest else .record id :: distinct (id :: seen) rest
  | r :: rest => r :: distinct seen rest

/-- The row of a record, if a row of an answer is one. -/
def storedRow? : AnswerRow → Option StoredRow
  | .record row => row
  | .values _ => none

/-- The record of an entity in a row of an answer. -/
def entityRecord (e : Entity) : AnswerRow → AnswerRecord
  | .record (some row) => .record (e.recordId row)
  | _ => .nothing

/-- The values in a row of an answer, by their requested names. -/
def valuesRecord (c : CompiledQuery) (naming : Naming) : AnswerRow → AnswerRecord
  | .values entries => .values (c.domainRow naming entries)
  | .record _ => .nothing

/-- The records of some rows of an answer, and what is loaded with them. A record that appears in
several rows is one record. -/
def materialize {m : Type → Type} [Monad m] (c : CompiledQuery) (store : Store m)
    (naming : Naming) (s : Statement) (rows : List AnswerRow) :
    m (Session × List AnswerRecord) :=
  match s.selection with
  | .records columns => do
    let (session, visits) :=
      ({} : Session).visit s.entity columns (rows.filterMap storedRow?).eraseDups
    let session ← store.load c.loads visits session
    pure (session, distinct [] (rows.map (entityRecord s.entity)))
  | .rows _ => pure ({}, rows.map (c.valuesRecord naming))

/-- The page of an answer, from the count of the counted statement if there is one. -/
def paginate {m : Type → Type} [Monad m] [MonadExceptOf QueryError m] (c : CompiledQuery)
    (store : Store m) : m (Option Pagination) :=
  match c.counted, c.window with
  | some counted, some window => do
    let count ← store.count counted
    some <$> MonadExcept.ofExcept (window.paginate? count)
  | _, _ => pure none

/-- Whether something is asked for that only records have: some of their columns, or related
records. -/
def wantsRecords (c : CompiledQuery) : Bool := c.isRestricted || !c.loads.isEmpty

end CompiledQuery

namespace Query

/-- The answer of a store to a request. -/
def fetchFrom {m : Type → Type} [Monad m] [MonadExceptOf QueryError m] (store : Store m)
    (q : Query) (request : Request) (transform : Option Transform)
    (refinement : Option StatementRefinement) : m Answer := do
  MonadExcept.ofExcept (StatementRefinement.check? refinement)
  let c ← MonadExcept.ofExcept (q.compile? request)
  let pagination ← c.paginate store
  let statement ← MonadExcept.ofExcept
    (StatementRefinement.refined? c.statement refinement)
  let rows ← store.rows c.wantsRecords statement
  let (session, records) ← c.materialize store q.naming statement rows
  let records ← MonadExcept.ofExcept (Transform.resultAll? session transform records)
  let outcome := if c.single then .single records.head? else .collection ⟨records, pagination⟩
  pure ⟨outcome, session⟩

/-- The answer of a database to a request. -/
def fetch? (q : Query) (db : Database) (request : Request) (transform : Option Transform)
    (refinement : Option StatementRefinement) : Except QueryError Answer :=
  fetchFrom db.store q request transform refinement

end Query

end ResourceQuery
