import ResourceQuery.Proofs.Include.Rows
import ResourceQuery.Proofs.Query.Distinct
import ResourceQuery.Proofs.Query.Pages
import ResourceQuery.Proofs.Query.Unpaged
import ResourceQuery.Proofs.Statement.Columns

/-!
# Requests without includes and fields

Included relations and the fields of records decide what is loaded of the records of an answer and
with them, and not which records these are.

* `Request.BareOf`: the same request without included relations and fields;
* `Query.readsAlike_statement?`: the statements of both read the same records;
* `CompiledQuery.materialize_readsAlike`: these are the records of both answers, with the same rows;
* `Query.exists_untransformed`: an answer with a transform is made of the answer without it;
* `relatedRows_perm`: a refinement of an include drops related rows;
* `Query.outcome_of_bare`: the outcomes of both requests.
-/

namespace ResourceQuery

/-- Whether a request is another one without included relations and fields. -/
structure Request.BareOf (request' request : Request) : Prop where
  params : ∃ parameters, Parameters.parse request.params = .ok parameters ∧
    Parameters.parse request'.params = .ok { parameters with includes := [], fields := [] }
  single : request'.single = request.single
  criteria : request'.criteria = request.criteria
  type : request'.type = request.type

theorem Parameters.readRequest?_bare {p : Parameters} {r : ReadRequest}
    (h : p.readRequest? = .ok r) :
    { p with includes := [], fields := [] }.readRequest? =
      .ok { r with projections := [], includes := [] } := by
  simp only [readRequest?, bind_eq_ok] at h ⊢
  obtain ⟨clauses, hclauses, keys, hkeys, projections, -, group, hgroup, includes, -, h⟩ := h
  cases h
  exact ⟨clauses, hclauses, keys, hkeys, [], rfl, group, hgroup, [], rfl, rfl⟩

/-! ## Transforms -/

/-- What a transform makes of the records of an outcome. -/
def Outcome.made? (session : Session) (transform : Option Transform) :
    Outcome → Except QueryError Outcome
  | single record => do
    let made ← Transform.resultAll? session transform record.toList
    .ok (single made.head?)
  | collection c => do
    let made ← Transform.resultAll? session transform c.records
    .ok (collection ⟨made, c.pagination⟩)

/-- The first of the made records is made of the first record. -/
theorem Transform.resultAll?_head? {session : Session} {transform : Option Transform}
    {records made : List AnswerRecord} (h : resultAll? session transform records = .ok made) :
    resultAll? session transform records.head?.toList = .ok made.head?.toList := by
  cases transform with
  | none =>
    cases h
    rfl
  | some t =>
    cases mapM_eq_ok.1 h with
    | nil => rfl
    | cons hfirst => exact mapM_eq_ok.2 (.cons hfirst .nil)

/-- An answer with a transform is what the transform makes of the records of the answer without
it. -/
theorem Query.exists_untransformed {q : Query} {db : Database} {request : Request}
    {transform : Option Transform} {refinement : Option StatementRefinement} {a : Answer}
    (h : q.fetch? db request transform refinement = .ok a) :
    ∃ b, q.fetch? db request none refinement = .ok b ∧ b.session = a.session ∧
      b.outcome.made? a.session transform = .ok a.outcome := by
  obtain ⟨hcheck, c, pagination, s, rows, session, records, made, hc, hpage, hs, hrows, hrecords,
    hmade, rfl⟩ := fetch?_refined_eq_ok.1 h
  refine ⟨_, fetch?_refined_eq_ok.2 ⟨hcheck, c, pagination, s, rows, session, records, records, hc,
    hpage, hs, hrows, hrecords, rfl, rfl⟩, rfl, ?_⟩
  cases c.single with
  | true =>
    refine bind_eq_ok.2 ⟨_, Transform.resultAll?_head? hmade, ?_⟩
    simp
  | false => exact bind_eq_ok.2 ⟨_, hmade, rfl⟩

/-! ## Records -/

namespace CompiledQuery

variable {c c' : CompiledQuery} {db : Database} {naming : Naming} {s s' : Statement}
  {session session' : Session} {records records' : List AnswerRecord}

/-- Statements that read alike have the same records. Where one request loads nothing beside them,
the other one has all its records, with the same rows. -/
theorem materialize_readsAlike (h : s.ReadsAlike s') (hloads : c'.loads = [])
    (hlabels : c'.aggregateLabels = c.aggregateLabels)
    (hrecords : c.materialize db.store naming s (s.rows db) = .ok (session, records))
    (hrecords' : c'.materialize db.store naming s' (s'.rows db) = .ok (session', records')) :
    records' = records ∧ session'.Keeps session := by
  rw [h.rows_eq] at hrecords'
  -- Rows of values have no session; records have that of their rows, to which loads add.
  have hshown : ∀ {columns columns' : List Column},
      s.selection = .records columns → s'.selection = .records columns' →
        records' = records ∧ session'.Keeps session := by
    intro columns columns' hs hs'
    obtain ⟨hload, rfl⟩ := (materialize_records hs).1 hrecords
    obtain ⟨hload', rfl⟩ := (materialize_records hs').1 hrecords'
    rw [hloads, h.entity_eq] at hload'
    cases hload'
    rw [h.entity_eq]
    have halike : Session.RowsAlike {} {} := fun _ => rfl
    have hvisits := (halike.visit s.entity columns' columns
      ((s.rows db).filterMap storedRow?).eraseDups).keeps
    exact ⟨rfl, hvisits.trans (RelationLoad.keeps_runAll hload)⟩
  cases hs : s.selection with
  | records columns =>
    have hs' : ∃ columns', s'.selection = .records columns' := by
      cases h with
      | refl => exact ⟨_, hs⟩
      | columns => exact ⟨_, rfl⟩
    obtain ⟨columns', hs'⟩ := hs'
    exact hshown hs hs'
  | rows terms =>
    obtain rfl : s = s' := by
      cases h with
      | refl => rfl
      | columns => cases hs
    obtain ⟨rfl, rfl⟩ := (materialize_rows hs).1 hrecords
    obtain ⟨rfl, rfl⟩ := (materialize_rows hs).1 hrecords'
    exact ⟨by rw [valuesRecord_congr hlabels], .refl _⟩

/-- Statements that read alike are counted alike. -/
theorem pagination_readsAlike {pagination pagination' : Option Pagination}
    (hwindow : c'.window = c.window)
    (hcounted : Option.Rel Statement.ReadsAlike c.counted c'.counted)
    (h : c.paginate db.store = .ok pagination) (h' : c'.paginate db.store = .ok pagination') :
    pagination' = pagination := by
  unfold paginate at h h'
  rw [hwindow] at h'
  generalize c.counted = counted at h hcounted
  generalize c'.counted = counted' at h' hcounted
  cases hcounted with
  | none => exact Except.ok.inj (h'.symm.trans h)
  | some halike =>
    cases hw : c.window with
    | none =>
      rw [hw] at h h'
      exact Except.ok.inj (h'.symm.trans h)
    | some window =>
      rw [hw] at h h'
      obtain ⟨n, hn, h⟩ := bind_eq_ok.1 h
      obtain ⟨n', hn', h'⟩ := bind_eq_ok.1 h'
      obtain ⟨-, rfl⟩ := Statement.count_eq_ok.1 (Statement.store_count_eq_ok.1 hn)
      obtain ⟨-, rfl⟩ := Statement.count_eq_ok.1 (Statement.store_count_eq_ok.1 hn')
      rw [halike.rowCount_eq] at h'
      exact Except.ok.inj (h'.symm.trans h)

end CompiledQuery

/-- The conditions of a refinement drop related rows of which they do not hold, and bring none. -/
theorem relatedRows_perm (db : Database) (r : Relationship) (owner target : Entity)
    (criteria : List Predicate) (row : StoredRow) :
    (relatedRows db r owner target criteria row).Perm
      ((relatedRows db r owner target [] row).filter fun x =>
        criteria.all (·.holds db [(target.reach.source, some x)])) := by
  unfold relatedRows
  refine (sortByKeys_perm ..).trans (.trans ?_ ((sortByKeys_perm ..).filter _).symm)
  rw [List.filter_filter]
  refine .of_eq (List.filter_congr fun x _ => ?_)
  simp

namespace Query

variable {q : Query} {db : Database} {request request' : Request} {parameters : Parameters}
  {r r' : ReadRequest} {s s' : Statement} {loads loads' : List RelationLoad}
  {isRestricted isRestricted' : Bool} {criteria : List (String × Value)}
  {fields : List SelectedField} {transform : Option Transform}
  {refinement : Option StatementRefinement} {a a' : Answer}

/-- The statement of a request for records reads like the one without includes and fields. -/
theorem readsAlike_statement? (he : q.entity.WellFormed) (hmode : isRowMode fields r.group = false)
    (hbare : isRowMode [] r.group = false)
    (h : q.statement? criteria r fields = .ok (s, loads, isRestricted))
    (h' : q.statement? criteria { r with projections := [], includes := [] } [] =
      .ok (s', loads', isRestricted')) : s.ReadsAlike s' := by
  obtain ⟨base, ps, group, joins, order, selection, hbase, hps, hoperands, horder, hselection, rfl,
    -⟩ := statement?_eq_ok h
  obtain ⟨base', ps', group', joins', order', selection', hbase', hps', hoperands', horder',
    hselection', rfl, -⟩ := statement?_eq_ok h'
  obtain rfl := Except.ok.inj (hbase.symm.trans hbase')
  obtain rfl := Except.ok.inj (hps.symm.trans hps')
  obtain rfl := Except.ok.inj (hoperands.symm.trans hoperands')
  obtain ⟨rfl, rfl⟩ := Prod.mk.inj (Except.ok.inj (horder.symm.trans horder'))
  rw [hmode] at hselection
  rw [hbare] at hselection'
  obtain ⟨columns, hne, rfl⟩ := selection?_records he hselection
  obtain ⟨columns', hne', rfl⟩ := selection?_records he hselection'
  exact .columns ⟨q.entity, .records columns, joins, base ++ ps, group, order, none, none⟩ hne hne'

/-- Without includes and fields a request for records loads nothing beside them. -/
theorem loads_eq_nil_of_bare (hmode : isRowMode [] r.group = false)
    (h : q.statement? criteria { r with projections := [], includes := [] } [] =
      .ok (s, loads, isRestricted)) : loads = [] := by
  obtain ⟨_, _, _, _, _, _, -, -, -, -, -, -, hloads⟩ := statement?_eq_ok h
  unfold loads? at hloads
  rw [hmode] at hloads
  exact (Except.ok.inj hloads).symm

theorem isRowMode_nil {group : List SelectedField} (h : isRowMode fields group = false) :
    isRowMode [] group = false := by
  simp only [isRowMode, Bool.or_eq_false_iff] at h
  simp only [isRowMode, h.1, List.any_nil, Bool.or_self]

theorem aggregateLabels_of_records (h : isRowMode (q.fieldsOf request r) r.group = false) :
    (q.compiled request r s loads isRestricted).aggregateLabels = [] :=
  if_neg (Bool.eq_false_iff.1 h)

/-- The compiled requests read alike, page and count included. -/
theorem readsAlike_compiled (hwindow : q.windowOf request' r' = q.windowOf request r)
    (hsingle : q.isSingle request'.single request'.criteria =
      q.isSingle request.single request.criteria) (h : s.ReadsAlike s') :
    (q.compiled request r s loads isRestricted).statement.ReadsAlike
        (q.compiled request' r' s' loads' isRestricted').statement ∧
      Option.Rel Statement.ReadsAlike (q.compiled request r s loads isRestricted).counted
        (q.compiled request' r' s' loads' isRestricted').counted := by
  simp only [compiled, hwindow, hsingle]
  constructor
  · split
    · exact h.withLimit _
    · exact h.paged _
  · split
    · exact .some h
    · exact .none

/-- The records of both answers, before anything is made of them. -/
theorem outcome_of_bare_untransformed (he : q.entity.WellFormed) (hbare : request'.BareOf request)
    (hrefinement : ∀ t ∈ refinement, t.IgnoresColumns)
    (hparse : Parameters.parse request.params = .ok parameters)
    (hread : parameters.readRequest? = .ok r)
    (hmode : isRowMode (q.fieldsOf request r) r.group = false)
    (h : q.fetch? db request none refinement = .ok a)
    (h' : q.fetch? db request' none refinement = .ok a') :
    a'.outcome = a.outcome ∧ a'.session.Keeps a.session := by
  obtain ⟨-, c, pagination, t, rows, session, records, made, hc, hpage, ht, hrows, hrecords, hmade,
    rfl⟩ := fetch?_refined_eq_ok.1 h
  obtain ⟨-, c', pagination', t', rows', session', records', made', hc', hpage', ht', hrows',
    hrecords', hmade', rfl⟩ := fetch?_refined_eq_ok.1 h'
  obtain ⟨s, loads, isRestricted, hstatement, rfl⟩ := exists_statement? hparse hread hc
  obtain ⟨parameters', hparse', hbare'⟩ := hbare.params
  obtain rfl := Except.ok.inj (hparse.symm.trans hparse')
  obtain ⟨s', loads', isRestricted', hstatement', rfl⟩ :=
    exists_statement? hbare' (Parameters.readRequest?_bare hread) hc'
  have hgroup := isRowMode_nil hmode
  have hlabels : (q.compiled request' { r with projections := [], includes := [] } s' loads'
      isRestricted').aggregateLabels = [] := aggregateLabels_of_records hgroup
  have hsingle : q.isSingle request'.single request'.criteria =
      q.isSingle request.single request.criteria := by rw [hbare.single, hbare.criteria]
  have hwindow : q.windowOf request' { r with projections := [], includes := [] } =
      q.windowOf request r := by rw [windowOf, windowOf, hsingle]
  rw [hbare.criteria] at hstatement'
  obtain rfl := loads_eq_nil_of_bare hgroup hstatement'
  obtain ⟨hcompiled, hcounted⟩ := readsAlike_compiled hwindow hsingle
    (readsAlike_statement? he hmode hgroup hstatement hstatement')
  have hrefined :=
    (StatementRefinement.agree_refined? hcompiled hrefinement).of_eq_ok ht ht'
  obtain ⟨-, rfl⟩ := Statement.run_eq_ok.1 (Statement.store_rows_eq_ok.1 hrows).2
  obtain ⟨-, rfl⟩ := Statement.run_eq_ok.1 (Statement.store_rows_eq_ok.1 hrows').2
  obtain ⟨rfl, hkeeps⟩ :=
    CompiledQuery.materialize_readsAlike hrefined rfl
      (hlabels.trans (aggregateLabels_of_records hmode).symm) hrecords hrecords'
  obtain rfl := CompiledQuery.pagination_readsAlike hwindow hcounted hpage hpage'
  obtain rfl := Except.ok.inj hmade
  obtain rfl := Except.ok.inj hmade'
  refine ⟨?_, hkeeps⟩
  have hsame : (q.compiled request' { r with projections := [], includes := [] } s' []
      isRestricted').single = (q.compiled request r s loads isRestricted).single := hsingle
  rw [hsame]

/-- **Includes and fields do not decide which records are returned.** Let a request for records and
the same request without its includes and fields both be answered, with one transform and one
refinement of the statement that does not look at the columns that are read of records. Then both
answers are made of one outcome: of the same records in the same order, on the same page with the
same counts. The records of the answer without includes are loaded with the same rows in the other
one. A refinement of an include keeps those related rows that its conditions hold of. -/
theorem outcome_of_bare (he : q.entity.WellFormed) (hbare : request'.BareOf request)
    (hrefinement : ∀ t ∈ refinement, t.IgnoresColumns)
    (hparse : Parameters.parse request.params = .ok parameters)
    (hread : parameters.readRequest? = .ok r)
    (hmode : isRowMode (q.fieldsOf request r) r.group = false)
    (h : q.fetch? db request transform refinement = .ok a)
    (h' : q.fetch? db request' transform refinement = .ok a') :
    (∃ b b', q.fetch? db request none refinement = .ok b ∧
      q.fetch? db request' none refinement = .ok b' ∧ b'.outcome = b.outcome ∧
        b.outcome.made? a.session transform = .ok a.outcome ∧
        b'.outcome.made? a'.session transform = .ok a'.outcome) ∧
      a'.session.Keeps a.session ∧
      ∀ (relationship : Relationship) (owner target : Entity) (criteria : List Predicate)
        (row : StoredRow), (relatedRows db relationship owner target criteria row).Perm
          ((relatedRows db relationship owner target [] row).filter fun x =>
            criteria.all (·.holds db [(target.reach.source, some x)])) := by
  obtain ⟨b, hb, hsession, hmade⟩ := exists_untransformed h
  obtain ⟨b', hb', hsession', hmade'⟩ := exists_untransformed h'
  obtain ⟨houtcome, hkeeps⟩ :=
    outcome_of_bare_untransformed he hbare hrefinement hparse hread hmode hb hb'
  rw [hsession, hsession'] at hkeeps
  exact ⟨⟨b, b', hb, hb', houtcome, hmade, hmade'⟩, hkeeps, relatedRows_perm db⟩

end Query

namespace Sample

/-- Two pets from the end of the alphabet, with other parameters. -/
def lastPets (others : List (String × Value)) : Request where
  params := .ofFields ([("sort", .list [.text "-name"]), ("page", pageValue 2 0)] ++ others)

/-- Their names alone, and those of their toys that are cars. -/
def lastPetsLoaded : Request := lastPets [
  ("include", .list
    [.map [(.text "toy", .refinement (.function "function") [.compare "type" .eq (.text "car")])]]),
  ("fields", .ofFields [("pet", .list [.text "name"])])]

/-- What is loaded of these toys. -/
def carLoad : RelationLoad :=
  .mk ⟨"toy", "Toy", false, linkedBy "id" "pet_id" false, []⟩ pet toy
    [.compare ⟨toy.reach.source, "type", .text⟩ .eq (.text "car")] none []

/-- The statement for these pets, without a page. -/
def lastPetsStatement : Statement where
  entity := pet
  selection := .records [column "id" .integer, column "name" .text]
  order := [⟨.term (.plain (.column ⟨pet.reach.source, "name", .text⟩)), true⟩]

/-- What the request compiles to. -/
def lastPetsQuery : CompiledQuery where
  statement := { lastPetsStatement with limit := some 2 }
  counted := some lastPetsStatement
  loads := [carLoad]
  isRestricted := true
  window := some ⟨some 2, 0⟩
  single := false
  rowMode := false
  aggregateLabels := []

/-- What the parameters of the request say. -/
def lastPetsRead : ReadRequest where
  clauses := []
  sortKeys := [⟨⟨[], "name"⟩, true⟩]
  projections := [("pet", [⟨"name", none⟩])]
  group := []
  includes := [⟨["toy"], some ⟨.function "function", [.compare "type" .eq (.text "car")]⟩⟩]
  page := some ⟨some 2, some 0⟩

theorem compile_lastPetsLoaded : pets.compile? lastPetsLoaded = .ok lastPetsQuery := by
  have hloads : pets.loads? [⟨"name", none⟩] lastPetsRead = .ok [carLoad] := by
    have htree : IncludeTree.ofPaths lastPetsRead.includes =
        [.mk "toy" (some ⟨.function "function", [.compare "type" .eq (.text "car")]⟩) []] := rfl
    rw [Query.loads?, htree, IncludeCompiler.loads?, IncludeCompiler.load?, IncludeCompiler.loads?]
    rfl
  have hstatement : pets.statement? [] lastPetsRead [⟨"name", none⟩] =
      .ok (lastPetsStatement, [carLoad], true) := by
    rw [Query.statement?_eq, hloads]
    rfl
  exact Query.compile?_eq_ok.2 ⟨_, lastPetsRead, _, _, _, rfl, rfl, hstatement, rfl⟩

/-- A refinement that leaves the pets of one owner. -/
def barneysPets : StatementRefinement :=
  .ofSteps schema (.function "function") false [.filter "pet_owner_id" .eq (.int 1)]

/-- They are the same pets on the same page as with all columns and without toys, also when the
refinement leaves out some of them. -/
theorem outcome_lastPets : ∃ a b, barneysPets.IgnoresColumns ∧
    pets.fetch? database lastPetsLoaded none (some barneysPets) = .ok a ∧
      pets.fetch? database (lastPets []) none (some barneysPets) = .ok b ∧
        b.outcome = a.outcome ∧ b.session.Keeps a.session := by
  have hignores : barneysPets.IgnoresColumns :=
    StatementRefinement.ofSteps_ignoresColumns schema (.function "function") false
      [.filter "pet_owner_id" .eq (.int 1)]
  have hcount : lastPetsStatement.count database = .ok 5 :=
    (Statement.count_eq_rowCount (by decide) (by decide +kernel)).trans (by decide +kernel)
  obtain ⟨a, ha, -⟩ := Query.exists_refined_answer pets database lastPetsLoaded (some barneysPets)
    (some ⟨some 2, 0, 5, some 3⟩) rfl compile_lastPetsLoaded rfl
    (Query.paginate_eq_ok rfl rfl hcount rfl) rfl rfl
    (Statement.runFault?_of_isTotal (by decide) (by decide) (by decide +kernel)) (by decide +kernel)
  obtain ⟨b, hb, -⟩ := Query.exists_refined_answer pets database (lastPets []) (some barneysPets)
    (some ⟨some 2, 0, 5, some 3⟩) rfl rfl rfl
    (Query.paginate_eq_ok rfl rfl (Statement.count_eq_rowCount (by decide) (by decide +kernel)) rfl)
    rfl rfl
    (Statement.runFault?_of_isTotal (by decide) (by decide) (by decide +kernel)) (by decide)
  have hbare : (lastPets []).BareOf lastPetsLoaded := ⟨⟨_, rfl, rfl⟩, rfl, rfl, rfl⟩
  have hread : ∃ parameters, Parameters.parse lastPetsLoaded.params = .ok parameters ∧
      parameters.readRequest? = .ok lastPetsRead := ⟨_, rfl, rfl⟩
  obtain ⟨parameters, hparse, hread⟩ := hread
  obtain ⟨⟨a', b', ha', hb', houtcome, -⟩, hkeeps, -⟩ :=
    Query.outcome_of_bare (by decide) hbare (by rintro _ ⟨⟩; exact hignores) hparse hread rfl ha hb
  obtain rfl := Except.ok.inj (ha.symm.trans ha')
  obtain rfl := Except.ok.inj (hb.symm.trans hb')
  exact ⟨a, b, hignores, ha, hb, houtcome, hkeeps⟩

end Sample

end ResourceQuery
