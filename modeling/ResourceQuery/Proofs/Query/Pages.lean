import ResourceQuery.Proofs.Include.Merged
import ResourceQuery.Proofs.Number.PageCount
import ResourceQuery.Proofs.Query.Count
import ResourceQuery.Proofs.Query.Records

/-!
# The pages of an answer

The pages of one size, one after the other, are the answer without a page.

* `flatMap_pages`: the pages of a list;
* `CompiledQuery.shownRecords_window`: a page shows a part of the records;
* `Query.AnswersAll.outcome_page`, `Query.AnswersAll.exists_page`: the answer on a page, when the
  request without a page is answered;
* `Query.pages_tile`: the answers on all pages.
-/

namespace ResourceQuery

/-- The records of an outcome. -/
def Outcome.records : Outcome → List AnswerRecord
  | .single record => record.toList
  | .collection c => c.records

/-! ## Pages of a list -/

section Lists

variable {α : Type} {xs : List α} {size : ℕ}

theorem flatMap_pages (xs : List α) (size count : ℕ) :
    (List.range count).flatMap (fun k => (xs.drop (k * size)).take size) =
      xs.take (count * size) := by
  induction count with
  | zero => simp
  | succ count ih =>
    rw [List.range_succ, List.flatMap_append, ih, List.flatMap_singleton, Nat.succ_mul,
      List.take_add]

theorem flatMap_all_pages (hsize : 0 < size) (xs : List α) :
    (List.range (pagesOf xs.length size)).flatMap (fun k => (xs.drop (k * size)).take size) =
      xs := by
  rw [flatMap_pages, List.take_of_length_le (le_pagesOf_mul hsize xs.length)]

theorem page_ne_nil (hsize : 0 < size) {k : ℕ} (hk : k < pagesOf xs.length size) :
    (xs.drop (k * size)).take size ≠ [] := by
  have hlt := mul_lt_of_lt_pagesOf hsize hk
  rw [← List.length_pos_iff, List.length_take, List.length_drop]
  omega

theorem length_page (hsize : 0 < size) {k : ℕ} (hk : k + 1 < pagesOf xs.length size) :
    ((xs.drop (k * size)).take size).length = size := by
  have hlt := mul_lt_of_lt_pagesOf hsize hk
  rw [Nat.succ_mul] at hlt
  rw [List.length_take, List.length_drop]
  omega

theorem page_eq_nil (hsize : 0 < size) {offset : ℕ}
    (hpast : pagesOf xs.length size * size ≤ offset) : (xs.drop offset).take size = [] := by
  rw [List.drop_eq_nil_of_le ((le_pagesOf_mul hsize xs.length).trans hpast), List.take_nil]

end Lists

/-- A statement on a page of its rows. An offset of zero is none. -/
def Statement.onPage (s : Statement) (limit offset : ℕ) : Statement :=
  { s with limit := some (limit : ℤ)
           offset := if (offset : ℤ) = 0 then none else some (offset : ℤ) }

theorem Statement.window_page {α : Type} {limit : Int} (hlimit : 0 < limit) (offset : Int)
    (xs : List α) :
    Statement.window (some limit) (if offset = 0 then none else some offset) xs =
      (xs.drop offset.toNat).take limit.toNat := by
  have hskip : (((if offset = 0 then none else some offset : Option Int).map Int.toNat).getD 0) =
      offset.toNat := by
    split
    · next h => simp [h]
    · rfl
  rw [Statement.window, hskip, if_neg (by omega)]

/-! ## Records of a page -/

namespace CompiledQuery

variable {c c' : CompiledQuery} {db : Database} {naming : Naming} {s : Statement}

/-- A page shows a part of the records, when the rows without it show different ones. -/
theorem shownRecords_window {limit offset : Option Int}
    (hrows : s.rows db = (s.groups db).map s.answerRow)
    (hdistinct : s.selectsRecords = true → ∃ ids : List RecordId, ids.Nodup ∧
      (s.groups db).map (entityRecord s.entity ∘ s.answerRow) = ids.map .record) :
    c.shownRecords db naming { s with limit := limit, offset := offset } =
      Statement.window limit offset (c.shownRecords db naming s) := by
  have hpage : { s with limit := limit, offset := offset }.rows db =
      Statement.window limit offset (s.rows db) := by
    rw [hrows, ← Statement.map_window]
    rfl
  have hcases : (∃ terms, s.selection = .rows terms) ∨
      ∃ columns, s.selection = .records columns := by
    cases s.selection <;> simp
  rcases hcases with ⟨terms, hselection⟩ | ⟨columns, hselection⟩
  · have hselection' : { s with limit := limit, offset := offset }.selection = .rows terms :=
      hselection
    rw [shownRecords_rows hselection, shownRecords_rows hselection', hpage, Statement.map_window]
  · obtain ⟨ids, hnodup, hrecords⟩ := hdistinct (by rw [Statement.selectsRecords, hselection])
    have hwindow := hnodup.sublist (Statement.window_sublist limit offset ids)
    have hall : (s.rows db).map (entityRecord s.entity) = ids.map .record := by
      rw [hrows, List.map_map, hrecords]
    have hselection' : { s with limit := limit, offset := offset }.selection = .records columns :=
      hselection
    rw [shownRecords_records hselection, shownRecords_records hselection', hpage,
      Statement.map_window, hall, distinct_of_nodup hnodup fun _ _ => List.not_mem_nil,
      ← Statement.map_window, distinct_of_nodup hwindow fun _ _ => List.not_mem_nil]

end CompiledQuery

namespace Query

variable {q : Query} {db : Database} {request request' : Request} {r : ReadRequest} {s : Statement}
  {loads : List RelationLoad} {isRestricted : Bool} {records : List AnswerRecord}

namespace AnswersAll

/-- The rows of such a request show different records when its filter reads nothing beside the
entity. -/
theorem distinct (h : q.AnswersAll db request r s loads isRestricted records)
    (hs : q.schema.WellFormed) (he : q.entity ∈ q.schema.entities) (hone : db.ToOne q.schema)
    (hkeyed : db.Keyed q.entity) (hcolumns : q.ComparesColumns request)
    (hselects : s.selectsRecords = true) :
    ∃ ids : List RecordId, ids.Nodup ∧
      (s.groups db).map (CompiledQuery.entityRecord s.entity ∘ s.answerRow) =
        ids.map .record := by
  obtain ⟨parameters, hparse, hread⟩ := h.parse
  have hentity := entity_statement? h.statement
  cases hmode : isRowMode (q.fieldsOf request r) r.group with
  | true =>
    obtain ⟨terms, hterms⟩ := asksRows_statement? hmode h.statement
    rw [Statement.selectsRecords, hterms] at hselects
    cases hselects
  | false =>
    have hasks := asksRecords_statement? (hs.entities _ he) (Parameters.plain_of_readRequest? hread)
      hmode h.statement
    have hlike := (hcolumns parameters r hparse hread).resolve_left (by simp [hmode])
    exact hasks.exists_recordIds hs (hentity ▸ he) hone (hentity ▸ hkeyed)
      (sources_statement? (values_ne_nil_of_readRequest? hread) hlike h.statement)

end AnswersAll

/-- The page of an answer comes from the count of the counted statement. -/
theorem paginate_eq_ok {c : CompiledQuery} {window : PageWindow} {n : ℕ} {page : Pagination}
    (hcounted : c.counted = some s) (hwindow : c.window = some window) (hn : s.count db = .ok n)
    (hpage : window.paginate? n = .ok page) : c.paginate db.store = .ok (some page) := by
  rw [CompiledQuery.paginate, hcounted, hwindow]
  refine bind_eq_ok.2 ⟨n, Statement.store_count_eq_ok.2 hn, ?_⟩
  rw [ofExcept_eq, hpage]
  rfl

/-- Records with what is loaded for them, when the store takes the conditions of the loads. -/
theorem exists_materialize (db : Database) (naming : Naming) {c : CompiledQuery}
    (h : Storable (RelationLoad.allCriteriaOf (RelationLoad.merged c.loads)))
    (rows : List AnswerRow) :
    ∃ session records, c.materialize db.store naming s rows = .ok (session, records) := by
  cases hselection : s.selection with
  | rows terms => exact ⟨_, _, (CompiledQuery.materialize_rows hselection).2 ⟨rfl, rfl⟩⟩
  | records columns =>
    obtain ⟨session, hsession⟩ := RelationLoad.exists_runAll db []
      (({} : Session).visit s.entity columns (rows.filterMap CompiledQuery.storedRow?).eraseDups).2
      (({} : Session).visit s.entity columns (rows.filterMap CompiledQuery.storedRow?).eraseDups).1
      (RelationLoad.merged c.loads) h
    exact ⟨_, _, (CompiledQuery.materialize_records hselection).2 ⟨hsession, rfl⟩⟩

/-- A request for a collection is answered when the store takes its refined statement and the
conditions of its loads. -/
theorem exists_refined_answer (q : Query) (db : Database) (request : Request)
    (refinement : Option StatementRefinement) (pagination : Option Pagination) {c : CompiledQuery}
    (hcheck : StatementRefinement.check? refinement = .ok ()) (hc : q.compile? request = .ok c)
    (hsingle : c.single = false) (hpagination : c.paginate db.store = .ok pagination)
    (hs : StatementRefinement.refined? c.statement refinement = .ok s)
    (hselects : (c.wantsRecords && !s.selectsRecords) = false) (haccepted : s.runFault? db = none)
    (hstorable : Storable (RelationLoad.allCriteriaOf c.loads)) :
    ∃ a, q.fetch? db request none refinement = .ok a ∧
      a.outcome = .collection ⟨c.shownRecords db q.naming s, pagination⟩ := by
  obtain ⟨session, shown, hmaterialize⟩ := exists_materialize db q.naming
    (s := s) (RelationLoad.storable_merged hstorable) (s.rows db)
  obtain rfl := CompiledQuery.eq_shownRecords hmaterialize
  have hrows : db.store.rows c.wantsRecords s = .ok (s.rows db) :=
    Statement.store_rows_eq_ok.2 ⟨hselects, Statement.run_eq_ok.2 ⟨haccepted, rfl⟩⟩
  refine ⟨_, fetch?_refined_eq_ok.2 ⟨hcheck, c, pagination, s, _, session, _, _, hc, hpagination,
    hs, hrows, hmaterialize, rfl, rfl⟩, ?_⟩
  rw [hsingle]
  rfl

/-- The same without a refinement. -/
theorem exists_answer (q : Query) (db : Database) (request : Request)
    (pagination : Option Pagination) {c : CompiledQuery} (hc : q.compile? request = .ok c)
    (hsingle : c.single = false) (hpagination : c.paginate db.store = .ok pagination)
    (hselects : (c.wantsRecords && !c.statement.selectsRecords) = false)
    (haccepted : c.statement.runFault? db = none)
    (hstorable : Storable (RelationLoad.allCriteriaOf c.loads)) :
    ∃ a, q.fetch? db request none none = .ok a ∧
      a.outcome = .collection ⟨c.shownRecords db q.naming c.statement, pagination⟩ :=
  exists_refined_answer q db request none pagination rfl hc hsingle hpagination rfl hselects
    haccepted hstorable

/-- The bounds of a page that the store takes. -/
theorem storeFault?_natCast {n : ℕ} (h : n < 2 ^ 63) : (Value.int n).storeFault? = none := by
  have hleast : Cell.leastInteger ≤ 0 := by decide
  have hgreatest : Cell.greatestInteger = 2 ^ 63 - 1 := rfl
  rw [Value.storeFault?, if_neg (by omega)]

theorem runFault?_onPage {limit offset : ℕ} (hall : s.limit = none ∧ s.offset = none)
    (h : s.runFault? db = none) (hlimit : limit < 2 ^ 63) (hoffset : offset < 2 ^ 63) :
    (s.onPage limit offset).runFault? db = none := by
  refine Statement.runFault?_window hall h ?_ ?_
  · intro l hl
    obtain rfl := Option.mem_some.1 hl
    exact storeFault?_natCast hlimit
  · intro o ho
    split at ho
    · cases ho
    · obtain rfl := Option.mem_some.1 ho
      exact storeFault?_natCast hoffset

namespace AnswersAll

section Page

variable {limit offset : ℕ} (h : q.AnswersAll db request r s loads isRestricted records)
  (hs : q.schema.WellFormed) (he : q.entity ∈ q.schema.entities) (hone : db.ToOne q.schema)
  (hkeyed : db.Keyed q.entity) (hproper : db.Proper q.entity)
  (hcolumns : q.ComparesColumns request) (hlimit : 0 < limit) (hlimit' : limit < 2 ^ 63)
  (hmany : records.length ≤ 2 ^ 53)
  (hpage : request'.OnPage request (some ⟨some limit, some offset⟩))

include h hs he hone hkeyed hproper hcolumns hlimit hlimit' hmany hpage

/-- What the request on a page compiles to, and what comes of that. -/
theorem exists_compiled :
    ∃ c, q.compile? request' = .ok c ∧ c.single = false ∧ c.loads = loads ∧
      c.wantsRecords = (isRestricted || !loads.isEmpty) ∧ c.statement = s.onPage limit offset ∧
      c.paginate db.store = .ok (some ⟨some limit, offset, records.length,
        some (pagesOf records.length limit)⟩) ∧
      c.shownRecords db q.naming c.statement = (records.drop offset).take limit := by
  obtain ⟨parameters, hparse, hread⟩ := h.parse
  have hsingle : q.isSingle request'.single request'.criteria = false := by
    rw [hpage.single, hpage.criteria]
    exact h.single
  have hcompile := compile?_onPage hpage
    (fun p hp => (Except.ok.inj (hparse.symm.trans hp)) ▸ hread) h.statement
  set r' : ReadRequest := { r with page := some ⟨some limit, some offset⟩ } with hr'
  set c := q.compiled request' r' s loads isRestricted with hc
  have hlabels : c.aggregateLabels =
      (q.compiled request r s loads isRestricted).aggregateLabels := by
    simp only [hc, compiled, fieldsOf, hpage.type]
    rfl
  have hwindow : q.windowOf request' r' = some ⟨some limit, offset⟩ := by
    rw [windowOf, hsingle]
    rfl
  have hstatement : c.statement = s.onPage limit offset := by
    simp only [hc, compiled, hsingle, hwindow]
    rfl
  refine ⟨c, hcompile, hsingle, rfl, rfl, hstatement, ?_, ?_⟩
  · have hcounted : c.counted = some s := by simp [hc, compiled, hwindow]
    have hwindow' : c.window = some ⟨some limit, offset⟩ := hwindow
    refine paginate_eq_ok hcounted hwindow' (h.count_eq (hs.entities _ he) hkeyed hproper) ?_
    rw [PageWindow.paginate?]
    simp only [Int.natCast_pos, hlimit, if_true, Int.toNat_natCast,
      pageCount?_eq hmany hlimit hlimit']
  · rw [hstatement, CompiledQuery.shownRecords_congr hlabels, Statement.onPage,
      CompiledQuery.shownRecords_window (rows_statement? h.statement)
        (h.distinct hs he hone hkeyed hcolumns), ← h.records,
      Statement.window_page (by exact_mod_cast hlimit), Int.toNat_natCast, Int.toNat_natCast]

/-- The answer on a page has its part of the records, and tells how many there are on all pages. -/
theorem outcome_page {b : Answer} (hb : q.fetch? db request' none none = .ok b) :
    b.outcome = .collection ⟨(records.drop offset).take limit, some ⟨some limit, offset,
      records.length, some (pagesOf records.length limit)⟩⟩ := by
  obtain ⟨c, hc, hsingle, -, -, -, hpaginate, hshown⟩ := h.exists_compiled hs he hone hkeyed
    hproper hcolumns hlimit hlimit' hmany hpage
  obtain ⟨_, session, hpaginate', -, -, -, rfl⟩ := (fetch?_collection hc hsingle).1 hb
  rw [← Except.ok.inj (hpaginate.symm.trans hpaginate'), hshown]

/-- A page is answered when the store takes its offset and the values of included conditions. -/
theorem exists_page (hoffset : offset < 2 ^ 63)
    (hstorable : Storable (RelationLoad.allCriteriaOf loads)) :
    ∃ b, q.fetch? db request' none none = .ok b := by
  obtain ⟨c, hc, hsingle, hloads, hwants, hstatement, hpaginate, -⟩ := h.exists_compiled hs he hone
    hkeyed hproper hcolumns hlimit hlimit' hmany hpage
  have haccepted : c.statement.runFault? db = none := by
    rw [hstatement]
    exact runFault?_onPage (unpaged_statement? h.statement) h.accepted hlimit' hoffset
  obtain ⟨b, hb, -⟩ := exists_answer q db _ _ hc hsingle hpaginate
    (by rw [hwants, hstatement]; exact h.selects) haccepted (by rwa [hloads])
  exact ⟨b, hb⟩

end Page

end AnswersAll

/-- **The pages of one size are the answer without a page.** Where relations to one record lead to
at most one row, and a filter for records has no `like` on a relation of the entity itself: every
page tells the number of all records and of the pages that they fill; these pages, one after the
other, have all records in their order; none of them is empty and all but the last are whole; and
after them there are only empty pages. A page is refused only for its offset or for the values of
included conditions. -/
theorem pages_tile (hs : q.schema.WellFormed) (he : q.entity ∈ q.schema.entities)
    (hone : db.ToOne q.schema) (hkeyed : db.Keyed q.entity) (hproper : db.Proper q.entity)
    (hcolumns : q.ComparesColumns request) {limit : ℕ} (hlimit : 0 < limit)
    (hlimit' : limit < 2 ^ 63) {all : Request} (hall : all.OnPage request none) {page : ℕ → Request}
    (hpage : ∀ offset, (page offset).OnPage request (some ⟨some limit, some offset⟩))
    {a : Answer} {pagination : Option Pagination}
    (ha : { q with pagination := none }.fetch? db all none none = .ok a)
    (hrecords : a.outcome = .collection ⟨records, pagination⟩)
    (hmany : records.length ≤ 2 ^ 53) :
    (∀ offset b, q.fetch? db (page offset) none none = .ok b → ∃ shown,
      b.outcome = .collection ⟨shown, some ⟨some limit, offset, records.length,
        some (pagesOf records.length limit)⟩⟩ ∧
      (pagesOf records.length limit * limit ≤ offset → shown = [])) ∧
    (∀ bs : ℕ → Answer, (∀ k < pagesOf records.length limit,
      q.fetch? db (page (k * limit)) none none = .ok (bs k)) →
        (List.range (pagesOf records.length limit)).flatMap (fun k => (bs k).outcome.records) =
          records ∧
        ∀ k < pagesOf records.length limit, (bs k).outcome.records ≠ [] ∧
          (k + 1 < pagesOf records.length limit → (bs k).outcome.records.length = limit)) ∧
    ∀ c, q.compile? (page 0) = .ok c → Storable (RelationLoad.allCriteriaOf c.loads) →
      ∀ offset < 2 ^ 63, ∃ b, q.fetch? db (page offset) none none = .ok b := by
  have hsingle : q.isSingle request.single request.criteria = false := by
    rw [← hall.single, ← hall.criteria]
    exact isSingle_of_collection (q := { q with pagination := none }) ha hrecords
  obtain ⟨r, s, loads, isRestricted, _, hanswers, houtcome⟩ := exists_answersAll hall hsingle ha
  obtain ⟨rfl, -⟩ := Collection.mk.inj (Outcome.collection.inj (hrecords.symm.trans houtcome))
  have hpages := fun offset b hb => hanswers.outcome_page hs he hone hkeyed hproper hcolumns hlimit
    hlimit' hmany (hpage offset) (b := b) hb
  refine ⟨fun offset b hb => ⟨_, hpages offset b hb, page_eq_nil hlimit⟩, fun bs hbs => ?_, ?_⟩
  · have hshown : ∀ k < pagesOf records.length limit,
        (bs k).outcome.records = (records.drop (k * limit)).take limit := by
      intro k hk
      rw [hpages _ _ (hbs k hk), Outcome.records]
    refine ⟨?_, fun k hk => ⟨?_, fun hlast => ?_⟩⟩
    · rw [List.flatMap_congr fun k hk => hshown k (List.mem_range.1 hk),
        flatMap_all_pages hlimit records]
    · rw [hshown k hk]
      exact page_ne_nil hlimit hk
    · rw [hshown k hk]
      exact length_page hlimit hlast
  · intro c hc hstorable offset hoffset
    obtain ⟨c', hc', -, hloads, -⟩ := hanswers.exists_compiled hs he hone hkeyed hproper hcolumns
      hlimit hlimit' hmany (hpage 0)
    obtain rfl := Except.ok.inj (hc.symm.trans hc')
    exact hanswers.exists_page hs he hone hkeyed hproper hcolumns hlimit hlimit' hmany
      (hpage offset) hoffset (hloads ▸ hstorable)

end Query

namespace Sample

/-- A page as a request asks for it. -/
def pageValue (limit offset : ℕ) : Value :=
  .ofFields [("limit", .int limit), ("offset", .int offset)]

theorem read_pageValue (limit offset : ℕ) :
    PageRequest.read (pageValue limit offset) = .ok ⟨some limit, some offset⟩ := by
  have hbound : ∀ i : ℕ, Input.readAtLeast 0 (.int i) = .ok (i : ℤ) := by
    intro i
    have hread : Input.readAtLeast 0 (.int i) =
        if (i : ℤ) < (0 : ℕ) then .error (.below 0) else .ok (i : ℤ) := rfl
    rw [hread, if_neg (by omega)]
  have hlimit : PageRequest.readBound "limit" [(.text "limit", .int limit),
      (.text "offset", .int offset)] =
        Input.at_ ["limit"] ((Input.readAtLeast 0 (.int limit)).map some) := rfl
  have hoffset : PageRequest.readBound "offset" [(.text "limit", .int limit),
      (.text "offset", .int offset)] =
        Input.at_ ["offset"] ((Input.readAtLeast 0 (.int offset)).map some) := rfl
  rw [hbound] at hlimit hoffset
  simp only [pageValue, Value.ofFields, List.map_cons, List.map_nil, PageRequest.read, hlimit,
    hoffset]
  rfl

theorem onPage_petsOfMen (limit offset : ℕ) :
    (petsOfMen (pageValue limit offset)).OnPage (petsOfMen .null)
      (some ⟨some limit, some offset⟩) := by
  refine ⟨⟨_, rfl, ?_⟩, rfl, rfl, rfl⟩
  have hpage : ∀ filter sort : Value, Parameters.readOne Parameters.readPage "page"
      [(.text "filter", filter), (.text "sort", sort), (.text "page", pageValue limit offset)] =
        .ok (some ⟨some limit, some offset⟩) := by
    intro filter sort
    have hread : Parameters.readOne Parameters.readPage "page" [(.text "filter", filter),
        (.text "sort", sort), (.text "page", pageValue limit offset)] =
          Input.under "page" ((PageRequest.read (pageValue limit offset)).map some) := rfl
    rw [hread, read_pageValue]
    rfl
  simp only [petsOfMen, Value.ofFields, List.map_cons, List.map_nil, Parameters.parse,
    Parameters.read, hpage]
  rfl

theorem comparesColumns_petsOfMen : pets.ComparesColumns (petsOfMen .null) := by
  intro parameters r hparse hread
  cases hparse
  cases hread
  exact .inr (by decide)

theorem exists_petsOfMen : ∃ a records,
    { pets with pagination := none }.fetch? database (petsOfMen .null) none none = .ok a ∧
      a.outcome = .collection ⟨records, none⟩ ∧ records.length = 3 := by
  obtain ⟨a, ha, houtcome⟩ := Query.exists_answer { pets with pagination := none } database
    (petsOfMen .null) none rfl rfl rfl (by decide +kernel)
    (Statement.runFault?_of_isTotal (by decide) (by decide) (by decide +kernel)) (by decide)
  refine ⟨a, _, ha, houtcome, ?_⟩
  exact (Query.length_shownRecords_compiled pets (petsOfMen .null) (by decide) (by decide)
    (by decide) rfl rfl rfl).trans (by decide +kernel)

/-- Two pages of two have the three pets of men. -/
theorem pages_petsOfMen : ∃ a records b₀ b₁,
    { pets with pagination := none }.fetch? database (petsOfMen .null) none none = .ok a ∧
      a.outcome = .collection ⟨records, none⟩ ∧ records.length = 3 ∧
        pets.fetch? database (petsOfMen (pageValue 2 0)) none none = .ok b₀ ∧
          pets.fetch? database (petsOfMen (pageValue 2 2)) none none = .ok b₁ ∧
            b₀.outcome.records ++ b₁.outcome.records = records := by
  obtain ⟨a, records, ha, houtcome, hlength⟩ := exists_petsOfMen
  obtain ⟨-, htile, hanswered⟩ := Query.pages_tile (q := pets) schema_wellFormed (by decide)
    database_toOne (by decide) (by decide) comparesColumns_petsOfMen (by decide) (by decide)
    ⟨⟨_, rfl, rfl⟩, rfl, rfl, rfl⟩ (onPage_petsOfMen 2) ha houtcome (by omega)
  have hpages : pagesOf records.length 2 = 2 := by rw [hlength]; rfl
  obtain ⟨b₀, hb₀⟩ := hanswered _ rfl (by decide) 0 (by decide)
  obtain ⟨b₁, hb₁⟩ := hanswered _ rfl (by decide) 2 (by decide)
  obtain ⟨hrecords, -⟩ := htile (fun k => if k = 0 then b₀ else b₁) fun k hk => by
    rw [hpages] at hk
    rcases (by omega : k = 0 ∨ k = 1) with rfl | rfl
    · exact hb₀
    · exact hb₁
  rw [hpages] at hrecords
  exact ⟨a, records, b₀, b₁, ha, houtcome, hlength, hb₀, hb₁,
    by simpa [List.range_succ] using hrecords⟩

/-- A query for people. -/
def people : Query := { schema := schema, entity := person, naming := .identity }

/-- The people with `1` in the text of the relation to their pets, one on a page. -/
def peopleLikePets (offset : ℕ) : Request where
  params := .ofFields [("filter", .ofFields [("like", .ofFields [("pets", .text "1")])]),
    ("page", pageValue 1 offset)]

/-- A `like` on a relation shows one record on two pages. -/
theorem like_on_relation_repeats_pages : ∃ a b,
    people.fetch? database (peopleLikePets 0) none none = .ok a ∧
      people.fetch? database (peopleLikePets 1) none none = .ok b ∧
        a.outcome = .collection ⟨[.record ⟨"Person", [n 1]⟩], some ⟨some 1, 0, 3, some 3⟩⟩ ∧
          b.outcome = .collection ⟨[.record ⟨"Person", [n 1]⟩], some ⟨some 1, 1, 3, some 3⟩⟩ := by
  obtain ⟨a, ha, hfirst⟩ := Query.exists_answer people database (peopleLikePets 0)
    (some ⟨some 1, 0, 3, some 3⟩) rfl rfl
    (Query.paginate_eq_ok rfl rfl (Statement.count_eq_rowCount (by decide) (by decide +kernel)) rfl)
    rfl
    (Statement.runFault?_of_isTotal (by decide) (by decide) (by decide +kernel)) (by decide)
  obtain ⟨b, hb, hsecond⟩ := Query.exists_answer people database (peopleLikePets 1)
    (some ⟨some 1, 1, 3, some 3⟩) rfl rfl
    (Query.paginate_eq_ok rfl rfl (Statement.count_eq_rowCount (by decide) (by decide +kernel)) rfl)
    rfl
    (Statement.runFault?_of_isTotal (by decide) (by decide) (by decide +kernel)) (by decide)
  refine ⟨a, b, ha, hb, ?_, ?_⟩
  · rw [hfirst, CompiledQuery.shownRecords_records rfl, Statement.rows_records rfl rfl rfl]
    rfl
  · rw [hsecond, CompiledQuery.shownRecords_records rfl, Statement.rows_records rfl rfl rfl]
    rfl

end Sample

end ResourceQuery
