import ResourceQuery.Proofs.Query.Statement

/-!
# Requests without a page

What an answer without a page and without a default page comes from, said about the request that it
is the answer to, whatever page that asks for.

* `Query.compiled_unpaged`: without a page the statement is the one that is counted with one;
* `Query.AnswersAll`: what a request is made of that is answered without a page;
* `Query.exists_answersAll`: every answer without a page comes from that.
-/

namespace ResourceQuery

namespace CompiledQuery

variable {c c' : CompiledQuery} {db : Database} {naming : Naming} {s : Statement}

/-- Rows of values depend on the labels of the aggregates and on nothing else of a request. -/
theorem valuesRecord_congr (h : c'.aggregateLabels = c.aggregateLabels) :
    c'.valuesRecord naming = c.valuesRecord naming := by
  funext row
  cases row with
  | record row => rfl
  | values entries =>
    have hkey : c'.domainKey naming = c.domainKey naming := by
      funext key
      rw [domainKey, domainKey, h]
    rw [valuesRecord, valuesRecord, domainRow, domainRow, hkey]

theorem shownRecords_congr (h : c'.aggregateLabels = c.aggregateLabels) :
    c'.shownRecords db naming s = c.shownRecords db naming s := by
  rw [shownRecords, shownRecords, valuesRecord_congr h]

end CompiledQuery

namespace Query

variable {q : Query} {db : Database} {request request' : Request} {r : ReadRequest} {s : Statement}
  {loads : List RelationLoad} {isRestricted : Bool} {records : List AnswerRecord}
  {criteria : List (String × Value)} {fields : List SelectedField}

/-- The statement that is counted is the one without a page, of a request for a collection. -/
theorem counted_compiled {s' : Statement}
    (h : (q.compiled request r s loads isRestricted).counted = some s') :
    s' = s ∧ q.isSingle request.single request.criteria = false := by
  cases hsingle : q.isSingle request.single request.criteria with
  | true =>
    have hwindow : q.windowOf request r = none := by rw [windowOf, hsingle]; rfl
    simp [compiled, hwindow] at h
  | false =>
    simp only [compiled] at h
    split at h
    · exact ⟨(Option.some.inj h).symm, rfl⟩
    · cases h

/-- Without a page and without a default page the statement is the one that is counted. -/
theorem compiled_unpaged (s : Statement) (loads : List RelationLoad) (isRestricted : Bool)
    (hsingle : q.isSingle request.single request.criteria = false) (hpage : r.page = none)
    (hdefault : q.pagination = none) :
    (q.compiled request r s loads isRestricted).statement = s ∧
      (q.compiled request r s loads isRestricted).counted = none ∧
      (q.compiled request r s loads isRestricted).single = false := by
  have hwindow : q.windowOf request r = none := by
    rw [windowOf, hsingle, hpage, hdefault]
    rfl
  simp [compiled, hsingle, hwindow, paged]

/-- The statement of a request has no page of its own. -/
theorem unpaged_statement? (h : q.statement? criteria r fields = .ok (s, loads, isRestricted)) :
    s.limit = none ∧ s.offset = none := by
  obtain ⟨_, _, _, _, _, _, -, -, -, -, -, rfl, -⟩ := statement?_eq_ok h
  exact ⟨rfl, rfl⟩

theorem rows_statement? (h : q.statement? criteria r fields = .ok (s, loads, isRestricted)) :
    s.rows db = (s.groups db).map s.answerRow := by
  obtain ⟨_, _, _, _, _, _, -, -, -, -, -, rfl, -⟩ := statement?_eq_ok h
  rfl

/-- What a request is made of that is answered without a page. -/
structure AnswersAll (q : Query) (db : Database) (request : Request) (r : ReadRequest)
    (s : Statement) (loads : List RelationLoad) (isRestricted : Bool)
    (records : List AnswerRecord) : Prop where
  parse : ∃ parameters, Parameters.parse request.params = .ok parameters ∧
    parameters.readRequest? = .ok r
  statement : q.statement? request.criteria r (q.fieldsOf request r) = .ok (s, loads, isRestricted)
  single : q.isSingle request.single request.criteria = false
  accepted : s.runFault? db = none
  selects : ((isRestricted || !loads.isEmpty) && !s.selectsRecords) = false
  records : records = (q.compiled request r s loads isRestricted).shownRecords db q.naming s

/-- A request whose answer is a collection is one for a collection. -/
theorem isSingle_of_collection {a : Answer} {answered : Collection AnswerRecord}
    (h : q.fetch? db request none none = .ok a) (ha : a.outcome = .collection answered) :
    q.isSingle request.single request.criteria = false := by
  obtain ⟨c, _, _, _, _, hc, -, -, -, rfl⟩ := fetch?_eq_ok.1 h
  obtain ⟨_, r, s, loads, isRestricted, -, -, -, rfl⟩ := compile?_eq_ok.1 hc
  by_contra hsingle
  have hone : (q.compiled request r s loads isRestricted).single = true :=
    eq_true_of_ne_false hsingle
  rw [hone] at ha
  cases ha

/-- What the answer to a request for a collection without a page comes from. -/
theorem exists_answersAll (hall : request'.OnPage request none)
    (hsingle : q.isSingle request.single request.criteria = false) {a : Answer}
    (h : { q with pagination := none }.fetch? db request' none none = .ok a) :
    ∃ r s loads isRestricted records, q.AnswersAll db request r s loads isRestricted records ∧
      a.outcome = .collection ⟨records, none⟩ := by
  obtain ⟨c, _, _, _, _, hc, -, -, -, -⟩ := fetch?_eq_ok.1 h
  obtain ⟨parameters', r', s, loads, isRestricted, hparse', hread', hstatement, rfl⟩ :=
    compile?_eq_ok.1 hc
  obtain ⟨parameters, hparse, hpage⟩ := hall.params
  obtain rfl := Except.ok.inj (hparse'.symm.trans hpage)
  have hr' : r'.page = none := Parameters.page_of_readRequest? hread'
  have hsingle' : { q with pagination := none }.isSingle request'.single request'.criteria =
      false := by
    rw [hall.single, hall.criteria]
    exact hsingle
  obtain ⟨hpaged, hcounted, hone⟩ := compiled_unpaged (q := { q with pagination := none }) (r := r')
    s loads isRestricted hsingle' hr' rfl
  obtain ⟨pagination, session, hpagination, hselects, haccepted, -, rfl⟩ :=
    (fetch?_collection hc hone).1 h
  rw [CompiledQuery.paginate, hcounted] at hpagination
  obtain rfl := Except.ok.inj hpagination
  rw [hpaged] at hselects haccepted ⊢
  refine ⟨{ r' with page := parameters.page }, s, loads, isRestricted, _,
    ⟨⟨_, hparse, Parameters.readRequest?_page hread' parameters.page⟩, ?_, hsingle, haccepted,
      hselects, rfl⟩, ?_⟩
  · rw [← hall.criteria, fieldsOf, ← hall.type]
    exact hstatement
  · refine congrArg (fun records => Outcome.collection ⟨records, none⟩) ?_
    refine CompiledQuery.shownRecords_congr ?_
    simp only [compiled, fieldsOf, hall.type]
    rfl

end Query

end ResourceQuery
