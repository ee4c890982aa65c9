import ResourceQuery.Query.Fetch
import ResourceQuery.Proofs.Outcome

/-!
# Compiled requests and their answers

What a request compiles to, and what an answer to it consists of, each said in one equation.

* `Query.compiled`, `Query.compile?_eq`, `Query.compile?_eq_ok`: the statements of a request, from
  its statement without a page;
* `Query.statement_compiled`: the statement that is run is that one, on some page;
* `Request.OnPage`: the same request on another page;
* `Query.compile?_onPage`: it compiles to the same statement, windowed in another way;
* `Query.fetch?_refined_eq_ok`, `Query.fetch?_transform_eq_ok`, `Query.fetch?_eq_ok`: an answer is
  the page, and what is made of the records of its rows;
* `Query.fetch?_shown`: without a transform and a refinement, these are the records that the
  statement shows.
-/

namespace ResourceQuery

/-! ## Compiled requests -/

namespace Query

/-- The fields of the records of a request. -/
def fieldsOf (q : Query) (request : Request) (r : ReadRequest) : List SelectedField :=
  Fields.ofType r.projections (if request.type.isEmpty then q.resourceType else request.type)

/-- The window of a request. -/
def windowOf (q : Query) (request : Request) (r : ReadRequest) : Option PageWindow :=
  if q.isSingle request.single request.criteria then none
  else PageWindow.resolve? q.pagination r.page

/-- The statements that answer a request, from the one without a page. -/
def compiled (q : Query) (request : Request) (r : ReadRequest) (s : Statement)
    (loads : List RelationLoad) (isRestricted : Bool) : CompiledQuery :=
  let single := q.isSingle request.single request.criteria
  let window := q.windowOf request r
  let fields := q.fieldsOf request r
  { statement := if single then { s with limit := some 1 } else paged s window
    counted := if (window.bind (·.limit)).isSome then some s else none
    loads, isRestricted, window, single
    rowMode := isRowMode fields r.group
    aggregateLabels :=
      if isRowMode fields r.group then FieldCompiler.aggregateLabels fields r.group else [] }

variable {q : Query} {request request' : Request} {c : CompiledQuery}

theorem lift_eq_ok {α : Type} {x : Checked α} {a : α} : x.lift = .ok a ↔ x = .ok a :=
  mapError_eq_ok

theorem compile?_eq : q.compile? request = (do
    let parameters ← (Parameters.parse request.params).lift
    let r ← parameters.readRequest?
    let (s, loads, isRestricted) ← q.statement? request.criteria r (q.fieldsOf request r)
    .ok (q.compiled request r s loads isRestricted)) :=
  rfl

theorem compile?_eq_ok : q.compile? request = .ok c ↔
    ∃ parameters r s loads isRestricted, Parameters.parse request.params = .ok parameters ∧
      parameters.readRequest? = .ok r ∧
      q.statement? request.criteria r (q.fieldsOf request r) = .ok (s, loads, isRestricted) ∧
      c = q.compiled request r s loads isRestricted := by
  simp only [compile?_eq, bind_eq_ok, lift_eq_ok, Prod.exists]
  constructor
  · rintro ⟨parameters, hparse, r, hread, s, loads, isRestricted, hstatement, h⟩
    exact ⟨parameters, r, s, loads, isRestricted, hparse, hread, hstatement,
      (Except.ok.inj h).symm⟩
  · rintro ⟨parameters, r, s, loads, isRestricted, hparse, hread, hstatement, rfl⟩
    exact ⟨parameters, hparse, r, hread, s, loads, isRestricted, hstatement, rfl⟩

/-- A request that compiles, and is read as something, is compiled from that. -/
theorem exists_statement? {parameters : Parameters} {r : ReadRequest}
    (hparse : Parameters.parse request.params = .ok parameters)
    (hread : parameters.readRequest? = .ok r) (hc : q.compile? request = .ok c) :
    ∃ s loads isRestricted,
      q.statement? request.criteria r (q.fieldsOf request r) = .ok (s, loads, isRestricted) ∧
        c = q.compiled request r s loads isRestricted := by
  obtain ⟨parameters', r', s, loads, isRestricted, hparse', hread', hstatement, rfl⟩ :=
    compile?_eq_ok.1 hc
  obtain rfl := Except.ok.inj (hparse.symm.trans hparse')
  obtain rfl := Except.ok.inj (hread.symm.trans hread')
  exact ⟨s, loads, isRestricted, hstatement, rfl⟩

/-- The statement of a request is the one without a page, on some page. -/
theorem statement_compiled (q : Query) (request : Request) (r : ReadRequest) (s : Statement)
    (loads : List RelationLoad) (isRestricted : Bool) :
    ∃ limit offset, (q.compiled request r s loads isRestricted).statement =
      { s with limit := limit, offset := offset } := by
  cases hsingle : q.isSingle request.single request.criteria with
  | true => exact ⟨some 1, s.offset, by simp [compiled, hsingle]⟩
  | false =>
    cases hwindow : q.windowOf request r with
    | none => exact ⟨s.limit, s.offset, by simp [compiled, hsingle, hwindow, paged]⟩
    | some w =>
      exact ⟨w.limit, if w.offset = 0 then none else some w.offset,
        by simp [compiled, hsingle, hwindow, paged]⟩

end Query

/-! ## Pages of one request -/

/-- Whether a request is another one on some page. -/
structure Request.OnPage (request' request : Request) (page : Option PageRequest) : Prop where
  params : ∃ parameters, Parameters.parse request.params = .ok parameters ∧
    Parameters.parse request'.params = .ok { parameters with page := page }
  single : request'.single = request.single
  criteria : request'.criteria = request.criteria
  type : request'.type = request.type

theorem Parameters.readRequest?_page {p : Parameters} {r : ReadRequest}
    (h : p.readRequest? = .ok r) (page : Option PageRequest) :
    { p with page := page }.readRequest? = .ok { r with page := page } := by
  simp only [readRequest?, bind_eq_ok] at h ⊢
  obtain ⟨clauses, hclauses, keys, hkeys, projections, hprojections, group, hgroup, includes,
    hincludes, h⟩ := h
  cases h
  exact ⟨clauses, hclauses, keys, hkeys, projections, hprojections, group, hgroup, includes,
    hincludes, rfl⟩

theorem Parameters.page_of_readRequest? {p : Parameters} {r : ReadRequest}
    (h : p.readRequest? = .ok r) : r.page = p.page := by
  simp only [readRequest?, bind_eq_ok] at h
  obtain ⟨_, -, _, -, _, -, _, -, _, -, h⟩ := h
  cases h
  rfl

/-- The same request on another page compiles to the same statement in another window. -/
theorem Query.compile?_onPage {q : Query} {request request' : Request}
    {page : Option PageRequest} {r : ReadRequest} {s : Statement} {loads : List RelationLoad}
    {isRestricted : Bool} (h : request'.OnPage request page)
    (hread : ∀ parameters, Parameters.parse request.params = .ok parameters →
      parameters.readRequest? = .ok r)
    (hstatement : q.statement? request.criteria r (q.fieldsOf request r) =
      .ok (s, loads, isRestricted)) :
    q.compile? request' =
      .ok (q.compiled request' { r with page := page } s loads isRestricted) := by
  obtain ⟨parameters, hparse, hparse'⟩ := h.params
  refine Query.compile?_eq_ok.2 ⟨_, { r with page := page }, s, loads, isRestricted, hparse',
    Parameters.readRequest?_page (hread _ hparse) page, ?_, rfl⟩
  rw [h.criteria, ← hstatement, fieldsOf, fieldsOf, h.type]
  rfl

/-! ## Statements -/

namespace Statement

variable {db : Database} {s : Statement}

theorem run_eq_ok {rows : List AnswerRow} :
    s.run db = .ok rows ↔ s.runFault? db = none ∧ rows = s.rows db := by
  unfold run
  cases s.runFault? db <;> simp [@eq_comm _ rows]

theorem count_eq_ok {n : Nat} :
    s.count db = .ok n ↔ s.countFault? db = none ∧ n = s.rowCount db := by
  unfold count
  cases s.countFault? db <;> simp [@eq_comm _ n]

theorem store_rows_eq_ok {wantsRecords : Bool} {rows : List AnswerRow} :
    db.store.rows wantsRecords s = .ok rows ↔
      (wantsRecords && !s.selectsRecords) = false ∧ s.run db = .ok rows := by
  simp only [Database.store]
  split
  · next h => simp [h]
  · next h => simp [mapError_eq_ok, Bool.not_eq_true _ ▸ h]

theorem store_count_eq_ok {n : Nat} : db.store.count s = .ok n ↔ s.count db = .ok n :=
  mapError_eq_ok

end Statement

/-! ## Answers -/

theorem ofExcept_eq {α : Type} (x : Except QueryError α) :
    (MonadExcept.ofExcept x : Except QueryError α) = x := by
  cases x <;> rfl

namespace CompiledQuery

variable {c : CompiledQuery} {db : Database} {naming : Naming} {s : Statement}
  {rows : List AnswerRow} {session : Session} {records : List AnswerRecord}

/-- The records of a statement for records, each of them once. -/
theorem materialize_records {columns : List Column} (hs : s.selection = .records columns) :
    c.materialize db.store naming s rows = .ok (session, records) ↔
      (RelationLoad.runAll db []
        (({} : Session).visit s.entity columns (rows.filterMap storedRow?).eraseDups).2
        (({} : Session).visit s.entity columns (rows.filterMap storedRow?).eraseDups).1
        (RelationLoad.merged c.loads)) = .ok session ∧
      records = distinct [] (rows.map (entityRecord s.entity)) := by
  rw [materialize, hs]
  simp only [bind_eq_ok, Database.store, mapError_eq_ok]
  constructor
  · rintro ⟨session', hload, h⟩
    cases h
    exact ⟨hload, rfl⟩
  · rintro ⟨hload, rfl⟩
    exact ⟨session, hload, rfl⟩

/-- The records of a statement for rows. -/
theorem materialize_rows {terms : List SelectedTerm} (hs : s.selection = .rows terms) :
    c.materialize db.store naming s rows = .ok (session, records) ↔
      session = {} ∧ records = rows.map (c.valuesRecord naming) := by
  rw [materialize, hs]
  simp only [pure, Except.pure, Except.ok.injEq, Prod.mk.injEq]
  exact and_congr eq_comm eq_comm

/-- The records that the rows of a statement show. -/
def shownRecords (c : CompiledQuery) (db : Database) (naming : Naming) (s : Statement) :
    List AnswerRecord :=
  match s.selection with
  | .records _ => distinct [] ((s.rows db).map (entityRecord s.entity))
  | .rows _ => (s.rows db).map (c.valuesRecord naming)

theorem shownRecords_records {columns : List Column} (hs : s.selection = .records columns) :
    c.shownRecords db naming s = distinct [] ((s.rows db).map (entityRecord s.entity)) := by
  rw [shownRecords, hs]

theorem shownRecords_rows {terms : List SelectedTerm} (hs : s.selection = .rows terms) :
    c.shownRecords db naming s = (s.rows db).map (c.valuesRecord naming) := by
  rw [shownRecords, hs]

theorem eq_shownRecords (h : c.materialize db.store naming s (s.rows db) = .ok (session, records)) :
    records = c.shownRecords db naming s := by
  cases hs : s.selection with
  | records columns => rw [shownRecords_records hs, ((materialize_records hs).1 h).2]
  | rows terms => rw [shownRecords_rows hs, ((materialize_rows hs).1 h).2]

end CompiledQuery

/-- An answer of a database is the page, and what is made of the records of the rows of the refined
statement. -/
theorem Query.fetch?_refined_eq_ok {q : Query} {db : Database} {request : Request}
    {transform : Option Transform} {refinement : Option StatementRefinement} {a : Answer} :
    q.fetch? db request transform refinement = .ok a ↔
      StatementRefinement.check? refinement = .ok () ∧
        ∃ c pagination s rows session records made, q.compile? request = .ok c ∧
          c.paginate db.store = .ok pagination ∧
          StatementRefinement.refined? c.statement refinement = .ok s ∧
          db.store.rows c.wantsRecords s = .ok rows ∧
          c.materialize db.store q.naming s rows = .ok (session, records) ∧
          Transform.resultAll? session transform records = .ok made ∧
          a = ⟨if c.single then .single made.head? else .collection ⟨made, pagination⟩,
            session⟩ := by
  simp only [fetch?, fetchFrom, ofExcept_eq, bind_eq_ok, Prod.exists, pure, Except.pure]
  constructor
  · rintro ⟨⟨⟩, hcheck, c, hc, pagination, hpage, s, hs, rows, hrows, session, records, hrecords,
      made, hmade, h⟩
    exact ⟨hcheck, c, pagination, s, rows, session, records, made, hc, hpage, hs, hrows, hrecords,
      hmade, (Except.ok.inj h).symm⟩
  · rintro ⟨hcheck, c, pagination, s, rows, session, records, made, hc, hpage, hs, hrows, hrecords,
      hmade, rfl⟩
    exact ⟨(), hcheck, c, hc, pagination, hpage, s, hs, rows, hrows, session, records, hrecords,
      made, hmade, rfl⟩

/-- Without a refinement of the statement it is the compiled one. -/
theorem Query.fetch?_transform_eq_ok {q : Query} {db : Database} {request : Request}
    {transform : Option Transform} {a : Answer} :
    q.fetch? db request transform none = .ok a ↔
      ∃ c pagination rows session records made, q.compile? request = .ok c ∧
        c.paginate db.store = .ok pagination ∧
        db.store.rows c.wantsRecords c.statement = .ok rows ∧
        c.materialize db.store q.naming c.statement rows = .ok (session, records) ∧
        Transform.resultAll? session transform records = .ok made ∧
        a = ⟨if c.single then .single made.head? else .collection ⟨made, pagination⟩, session⟩ := by
  simp only [fetch?_refined_eq_ok, StatementRefinement.check?, StatementRefinement.refined?,
    Except.ok.injEq, true_and, exists_and_left, exists_eq_left']

/-- Without a transform the answer consists of the records themselves. -/
theorem Query.fetch?_eq_ok {q : Query} {db : Database} {request : Request} {a : Answer} :
    q.fetch? db request none none = .ok a ↔
      ∃ c pagination rows session records, q.compile? request = .ok c ∧
        c.paginate db.store = .ok pagination ∧
        db.store.rows c.wantsRecords c.statement = .ok rows ∧
        c.materialize db.store q.naming c.statement rows = .ok (session, records) ∧
        a = ⟨if c.single then .single records.head? else .collection ⟨records, pagination⟩,
          session⟩ := by
  simp only [fetch?_transform_eq_ok, Transform.resultAll?, Except.ok.injEq, exists_eq_left',
    exists_and_left]

/-- An answer consists of the records that the statement shows, and their page. -/
theorem Query.fetch?_shown {q : Query} {db : Database} {request : Request} {c : CompiledQuery}
    (hc : q.compile? request = .ok c) {a : Answer} :
    q.fetch? db request none none = .ok a ↔
      ∃ pagination session, c.paginate db.store = .ok pagination ∧
        (c.wantsRecords && !c.statement.selectsRecords) = false ∧
        c.statement.runFault? db = none ∧
        c.materialize db.store q.naming c.statement (c.statement.rows db) =
          .ok (session, c.shownRecords db q.naming c.statement) ∧
        a = ⟨if c.single then .single (c.shownRecords db q.naming c.statement).head?
          else .collection ⟨c.shownRecords db q.naming c.statement, pagination⟩, session⟩ := by
  simp only [Query.fetch?_eq_ok, hc, Except.ok.injEq, exists_eq_left', exists_and_left,
    Statement.store_rows_eq_ok, Statement.run_eq_ok]
  constructor
  · rintro ⟨pagination, hpage, rows, ⟨hwants, hfault, rfl⟩, session, records, hrecords, rfl⟩
    obtain rfl := CompiledQuery.eq_shownRecords hrecords
    exact ⟨pagination, hpage, hwants, hfault, session, hrecords, rfl⟩
  · rintro ⟨pagination, hpage, hwants, hfault, session, hrecords, rfl⟩
    exact ⟨pagination, hpage, _, ⟨hwants, hfault, rfl⟩, session, _, hrecords, rfl⟩

/-- An answer that is a collection. -/
theorem Query.fetch?_collection {q : Query} {db : Database} {request : Request} {c : CompiledQuery}
    (hc : q.compile? request = .ok c) (hsingle : c.single = false) {a : Answer} :
    q.fetch? db request none none = .ok a ↔
      ∃ pagination session, c.paginate db.store = .ok pagination ∧
        (c.wantsRecords && !c.statement.selectsRecords) = false ∧
        c.statement.runFault? db = none ∧
        c.materialize db.store q.naming c.statement (c.statement.rows db) =
          .ok (session, c.shownRecords db q.naming c.statement) ∧
        a = ⟨.collection ⟨c.shownRecords db q.naming c.statement, pagination⟩, session⟩ := by
  simp only [Query.fetch?_shown hc, hsingle, Bool.false_eq_true, if_false]

end ResourceQuery
