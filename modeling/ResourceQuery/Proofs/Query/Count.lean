import ResourceQuery.Proofs.Filter.Kept
import ResourceQuery.Proofs.Query.Distinct
import ResourceQuery.Proofs.Query.Unpaged
import ResourceQuery.Proofs.Statement.Faults

/-!
# The count of an answer

The counting statement of a request on a page counts the records that the request has without one.

* `Statement.keptRows`: the rows of an entity that some conditions keep;
* `Statement.AsksRecords.rowCount_eq`: records are counted by these rows, whatever the joins;
* `Query.rowCount_eq_card`: rows of values are counted by the contents of the group columns;
* `Query.count_eq_length_records`: the count of a request and the length of its answer.
-/

namespace ResourceQuery

/-! ## Records -/

namespace Statement

variable {schema : Schema} {s : Statement} {db : Database}

/-- The rows of an entity that some conditions keep. -/
def keptRows (db : Database) (e : Entity) (conditions : List Predicate) : List StoredRow :=
  (db.rows e.table).filter fun x =>
    (((Statement.all e).filtered conditions).frames db).any fun f =>
      f.row? e.reach.source == some x

/-- A statement with some conditions and nothing else asks for records. -/
theorem asksRecords_filtered (schema : Schema) {e : Entity} {conditions : List Predicate}
    (he : e.columns ≠ []) (h : ∀ p ∈ conditions, p.MentionsOnly Source.isUnjoined) :
    ((Statement.all e).filtered conditions).AsksRecords schema where
  selection := ⟨e.columns, he, rfl⟩
  joined := ⟨{}, .none⟩
  unjoined := h
  group := rfl

namespace AsksRecords

/-- The rows that the conditions keep are those that the frames show. -/
theorem mem_keptRows (h : s.AsksRecords schema) (he : s.entity.columns ≠ []) {x : StoredRow} :
    x ∈ keptRows db s.entity s.conditions ↔ x ∈ shownRows db s := by
  have hfiltered := asksRecords_filtered schema he h.unjoined
  have hframes : ∀ x : StoredRow,
      ((((Statement.all s.entity).filtered s.conditions).frames db).any fun f =>
        f.row? s.entity.reach.source == some x) = true ↔
          x ∈ shownRows db ((Statement.all s.entity).filtered s.conditions) := by
    intro x
    have hrows := hfiltered.map_row?_eq_shownRows db
    rw [List.any_eq_true, ← List.mem_map_of_injective (Option.some_injective _), ← hrows,
      List.mem_map]
    simp only [beq_iff_eq]
    rfl
  rw [keptRows, List.mem_filter, hframes, mem_shownRows, mem_shownRows]
  exact and_iff_right_of_imp And.left

theorem nodup_keptRows {e : Entity} {conditions : List Predicate} (hkeyed : db.Keyed e) :
    ((keptRows db e conditions).map e.recordId).Nodup :=
  hkeyed.sublist (List.filter_sublist.map _)

/-- The records that a statement shows are those of the rows that its conditions keep. -/
theorem card_recordIds (h : s.AsksRecords schema) (he : s.entity.columns ≠ [])
    (hkeyed : db.Keyed s.entity) :
    ((shownRows db s).map s.entity.recordId).toFinset.card =
      (keptRows db s.entity s.conditions).length := by
  have hset : ((shownRows db s).map s.entity.recordId).toFinset =
      ((keptRows db s.entity s.conditions).map s.entity.recordId).toFinset := by
    ext id
    simp only [List.mem_toFinset, List.mem_map, h.mem_keptRows he]
  rw [hset, List.toFinset_card_of_nodup (nodup_keptRows hkeyed), List.length_map]

/-- Every kept row is shown as one record. -/
theorem length_records (h : s.AsksRecords schema) (he : s.entity.columns ≠ [])
    (hkeyed : db.Keyed s.entity) :
    (CompiledQuery.distinct [] ((s.groups db).map
      (CompiledQuery.entityRecord s.entity ∘ s.answerRow))).length =
        (keptRows db s.entity s.conditions).length := by
  obtain ⟨xs, hxs, hrecords⟩ := h.records_perm db
  rw [hrecords, CompiledQuery.length_distinct, List.toFinset_eq_of_perm _ _ (hxs.map _),
    h.card_recordIds he hkeyed]

theorem map_keyCells (h : s.AsksRecords schema) (db : Database) :
    (s.frames db).map s.keyCells = ((shownRows db s).map s.entity.recordId).map (·.key) := by
  have hrows := congrArg (List.map fun row => s.entity.keyColumns.map fun c =>
    ((row.map (StoredRow.get · c.name)).getD .null)) (h.map_row?_eq_shownRows db)
  rw [List.map_map, List.map_map] at hrows
  rw [List.map_map]
  exact hrows

/-- The count of records is that of the rows that the conditions keep. -/
theorem rowCount_eq (h : s.AsksRecords schema) (db : Database) (he : s.entity.columns ≠ [])
    (hkeyed : db.Keyed s.entity) :
    s.rowCount db = (keptRows db s.entity s.conditions).length := by
  obtain ⟨columns, -, hselection⟩ := h.selection
  have hinj : Set.InjOn (fun id : RecordId => id.key)
      ((shownRows db s).map s.entity.recordId).toFinset := by
    intro a ha b hb hkey
    simp only [List.coe_toFinset, Set.mem_ofPred_eq, List.mem_map] at ha hb
    obtain ⟨x, -, rfl⟩ := ha
    obtain ⟨y, -, rfl⟩ := hb
    exact congrArg (RecordId.mk s.entity.name) hkey
  rw [rowCount, hselection]
  dsimp only
  rw [h.map_keyCells, length_eraseDups, ← h.card_recordIds he hkeyed,
    ← Finset.card_image_of_injOn hinj]
  congr 1
  ext key
  simp

end AsksRecords

end Statement

/-! ## Rows -/

theorem SelectedField.isAggregate_of_term? {schema : Schema} {r : Reach} {f : SelectedField}
    {t : Term} (h : f.term? schema r = .ok t) : t.isAggregate = true := by
  obtain ⟨_, -, rfl⟩ | ⟨_, _, _, -, -, -, rfl⟩ := term?_cases h <;> rfl

namespace Query

variable {q : Query} {criteria : List (String × Value)} {r : ReadRequest}
  {fields : List SelectedField} {s : Statement} {loads : List RelationLoad} {isRestricted : Bool}
  {db : Database}

/-- The cells that rows are grouped by are null, cells of the entity or truth values. -/
theorem proper_group (hproper : db.Proper q.entity)
    (h : q.statement? criteria r fields = .ok (s, loads, isRestricted)) :
    ∀ f ∈ s.frames db, ∀ x ∈ s.group, (x.cell f).IsProper := by
  intro f hf x hx
  have hcolumn : ∀ column : Column,
      ((Operand.column (column.at_ q.entity.reach.source)).cell f).IsProper := by
    intro column
    rw [Operand.cell, Frame.get]
    cases hrow : f.row? (column.at_ q.entity.reach.source).source with
    | none => simp [Cell.IsProper]
    | some y => exact hproper.get ((Frame.IsOf.of_mem_frames hf).row? hrow) _
  obtain ⟨name, field, operands, hfield, hoperands, hx⟩ := group_statement? h hx
  obtain ⟨label, -, rfl⟩ | ⟨column, -, -, rfl⟩ | ⟨hclass, rfl⟩ :=
    ResolvedField.mem_groupOperands? hoperands hx
  · simp [Operand.cell, Cell.IsProper]
  · exact hcolumn column
  · cases Reach.field?_eq_ok.1 hfield with
    | column => exact hcolumn _
    | relation =>
      rw [ResolvedField.operand, Operand.cell]
      cases equalitiesTruth f _ <;> simp [Cell.ofTruth, Cell.IsProper]
    | ofClass => exact absurd rfl (hclass _)

/-- Rows without a group show an aggregate. -/
theorem exists_aggregate (he : q.entity.WellFormed) (hmode : isRowMode fields r.group = true)
    (h : q.statement? criteria r fields = .ok (s, loads, isRestricted)) (hgroup : s.group = []) :
    s.selectedTerms.any (·.isAggregate) = true := by
  have hnil := nil_of_group_nil he h hgroup
  have hfields : ∃ f ∈ fields, f.isAggregate = true := by
    simpa [isRowMode, hnil] using hmode
  obtain ⟨f, hf, haggregate⟩ := hfields
  obtain ⟨terms, hselection, hterms⟩ := rowTerms_statement? hmode h
  have hne : fields.isEmpty = false := List.isEmpty_eq_false_iff_exists_mem.2 ⟨f, hf⟩
  rw [FieldCompiler.rowTerms?, hne, if_neg (by decide)] at hterms
  obtain ⟨term, hterm⟩ := exists_mapM_eq_ok.1 ⟨terms, hterms⟩ f hf
  obtain ⟨-, t, haggregated, rfl⟩ | ⟨hplain, -⟩ := FieldCompiler.selectedTerm?_cases hterm
  swap
  · exact absurd haggregate (Bool.eq_false_iff.1 hplain)
  by_contra hnone
  rw [Statement.selectedTerms, hselection, List.any_map, Bool.not_eq_true,
    List.any_eq_false] at hnone
  refine (forall_of_mapM_eq_ok hterms fun term => ¬ term.term.isAggregate = true).1
    hnone f hf _ hterm (SelectedField.isAggregate_of_term? haggregated)

/-- Rows are counted as they are grouped. -/
theorem rowCount_eq_length_groups (hmode : isRowMode fields r.group = true)
    (hproper : db.Proper q.entity)
    (h : q.statement? criteria r fields = .ok (s, loads, isRestricted)) :
    s.rowCount db = (s.groups db).length := by
  obtain ⟨terms, hterms⟩ := asksRows_statement? hmode h
  rw [Statement.length_groups (proper_group hproper h), Statement.rowCount, hterms]

/-- There is one row for every content of the group columns, and a single one without a group. -/
theorem rowCount_eq_card (he : q.entity.WellFormed) (hmode : isRowMode fields r.group = true)
    (hproper : db.Proper q.entity)
    (h : q.statement? criteria r fields = .ok (s, loads, isRestricted)) :
    s.rowCount db = if s.group = [] then 1
      else ((s.frames db).map s.groupContent).toFinset.card := by
  have hcount : s.rowCount db = (s.unorderedGroups (s.frames db)).length := by
    rw [rowCount_eq_length_groups hmode hproper h, Statement.length_groups (proper_group hproper h)]
    exact Statement.length_unorderedGroups_congr (s := s) rfl rfl (.refl _) (proper_group hproper h)
  rw [hcount]
  split
  · next hgroup =>
    have hgrouped : s.isGrouped = true := by
      rw [Statement.isGrouped, exists_aggregate he hmode h hgroup, Bool.or_true]
    simp [Statement.unorderedGroups, hgrouped, hgroup]
  · next hgroup => exact Statement.length_unorderedGroups hgroup (proper_group hproper h)

/-! ## Requests -/

variable {request request' : Request} {c : CompiledQuery}

/-- A statement is counted by the records that it shows. -/
theorem length_shownRecords (he : q.entity.WellFormed) (hkeyed : db.Keyed q.entity)
    (hproper : db.Proper q.entity)
    (hplain : ∀ key ∈ r.sortKeys, ∀ name ∈ key.path.relations, IsPlain name)
    (h : q.statement? criteria r fields = .ok (s, loads, isRestricted)) :
    (c.shownRecords db q.naming s).length = s.rowCount db := by
  cases hmode : isRowMode fields r.group with
  | true =>
    obtain ⟨terms, hterms⟩ := asksRows_statement? hmode h
    rw [CompiledQuery.shownRecords_rows hterms, rows_statement? h, List.length_map, List.length_map,
      rowCount_eq_length_groups hmode hproper h]
  | false =>
    have hrecords := asksRecords_statement? he hplain hmode h
    obtain ⟨columns, -, hcolumns⟩ := hrecords.selection
    have hentity := entity_statement? h
    rw [CompiledQuery.shownRecords_records hcolumns, rows_statement? h, List.map_map,
      hrecords.length_records (hentity ▸ he.columns_ne_nil) (hentity ▸ hkeyed),
      hrecords.rowCount_eq db (hentity ▸ he.columns_ne_nil) (hentity ▸ hkeyed)]

/-- Without a window the records of a request are those that its statement counts. -/
theorem length_shownRecords_compiled (q : Query) (request : Request) (he : q.entity.WellFormed)
    (hkeyed : db.Keyed q.entity) (hproper : db.Proper q.entity) (hc : q.compile? request = .ok c)
    (hsingle : c.single = false) (hwindow : c.window = none) :
    (c.shownRecords db q.naming c.statement).length = c.statement.rowCount db := by
  obtain ⟨parameters, r, s, loads, isRestricted, -, hread, hstatement, rfl⟩ := compile?_eq_ok.1 hc
  have hall : (q.compiled request r s loads isRestricted).statement = s := by
    have hsingle' : q.isSingle request.single request.criteria = false := hsingle
    have hwindow' : q.windowOf request r = none := hwindow
    simp [compiled, hsingle', hwindow', paged]
  rw [hall]
  exact length_shownRecords he hkeyed hproper (Parameters.plain_of_readRequest? hread) hstatement

/-- The count of a request that is answered without a page is the number of its records. -/
theorem AnswersAll.count_eq {records : List AnswerRecord}
    (h : q.AnswersAll db request r s loads isRestricted records) (he : q.entity.WellFormed)
    (hkeyed : db.Keyed q.entity) (hproper : db.Proper q.entity) :
    s.count db = .ok records.length := by
  obtain ⟨parameters, -, hread⟩ := h.parse
  rw [Statement.count_eq_ok, h.records]
  exact ⟨Statement.countFault?_eq_none (unpaged_statement? h.statement).1 h.accepted,
    length_shownRecords he hkeyed hproper (Parameters.plain_of_readRequest? hread) h.statement⟩

/-- **The count of a request on a page.** It is the number of records that the request has without
a page and without a default page. Records are counted by the rows of the entity that the base
criteria and the filter keep, whatever else is asked for; rows of values are counted by the contents
of the group columns, and without a group there is one. -/
theorem count_eq_length_records {s : Statement} (hs : q.schema.WellFormed)
    (he : q.entity ∈ q.schema.entities) (hkeyed : db.Keyed q.entity) (hproper : db.Proper q.entity)
    (hc : q.compile? request = .ok c) (hcounted : c.counted = some s)
    (hpage : request'.OnPage request none) :
    (∀ a, { q with pagination := none }.fetch? db request' none none = .ok a →
      ∃ records, a.outcome = .collection ⟨records, none⟩ ∧ s.count db = .ok records.length) ∧
    ∀ n, s.count db = .ok n →
      if c.rowMode then
        n = if s.group = [] then 1 else ((s.frames db).map s.groupContent).toFinset.card
      else
        ∃ parameters r base ps, Parameters.parse request.params = .ok parameters ∧
          parameters.readRequest? = .ok r ∧
          q.filters.criteria? q.entity.reach request.criteria = .ok base ∧
          q.filters.filter? q.entity r.clauses = .ok ps ∧
          n = (Statement.keptRows db q.entity (base ++ ps)).length := by
  obtain ⟨parameters, r, _, loads, isRestricted, hparse, hread, hstatement, rfl⟩ :=
    compile?_eq_ok.1 hc
  obtain ⟨rfl, hsingle⟩ := counted_compiled hcounted
  have hwell := hs.entities _ he
  have hplain := Parameters.plain_of_readRequest? hread
  refine ⟨fun a ha => ?_, fun n hn => ?_⟩
  · obtain ⟨r', s', _, _, records, hanswers, houtcome⟩ := exists_answersAll hpage hsingle ha
    obtain ⟨parameters', hparse', hread'⟩ := hanswers.parse
    obtain rfl := Except.ok.inj (hparse.symm.trans hparse')
    obtain rfl := Except.ok.inj (hread.symm.trans hread')
    obtain ⟨rfl, -⟩ := Prod.mk.inj (Except.ok.inj (hstatement.symm.trans hanswers.statement))
    exact ⟨records, houtcome, hanswers.count_eq hwell hkeyed hproper⟩
  · obtain ⟨-, rfl⟩ := Statement.count_eq_ok.1 hn
    have hmode : (q.compiled request r s loads isRestricted).rowMode =
        isRowMode (q.fieldsOf request r) r.group := rfl
    rw [hmode]
    split
    · next hrows => exact rowCount_eq_card hwell hrows hproper hstatement
    · next hrecords =>
      have hasks := asksRecords_statement? hwell hplain (eq_false_of_ne_true hrecords) hstatement
      have hcount := hasks.rowCount_eq db
      obtain ⟨base, ps, group, joins, order, selection, hbase, hps, -, -, -, rfl, -⟩ :=
        statement?_eq_ok hstatement
      exact ⟨parameters, r, base, ps, hparse, hread, hbase, hps,
        hcount hwell.columns_ne_nil hkeyed⟩

end Query

namespace Sample

/-- A query for pets. -/
def pets : Query := { schema := schema, entity := pet, naming := .identity }

/-- The pets of men by the age of their owners. -/
def petsOfMen (page : Value) : Request where
  params := .ofFields [("filter", .ofFields [("pet_owner.gender", .text "m")]),
    ("sort", .list [.text "pet_owner.age"]), ("page", page)]

/-- Without a page there are as many of them as are counted for one. -/
theorem count_petsOfMen :
    ∃ c s, pets.compile? (petsOfMen (.ofFields [("limit", .int 2)])) = .ok c ∧
      c.counted = some s ∧ s.count database = .ok 3 ∧
        ∀ a, { pets with pagination := none }.fetch? database (petsOfMen .null) none none = .ok a →
          ∃ records, a.outcome = .collection ⟨records, none⟩ ∧
            s.count database = .ok records.length := by
  have hpage : (petsOfMen .null).OnPage (petsOfMen (.ofFields [("limit", .int 2)])) none :=
    ⟨⟨_, rfl, rfl⟩, rfl, rfl, rfl⟩
  refine ⟨_, _, rfl, rfl, (Statement.count_eq_rowCount (by decide) (by decide +kernel)).trans
    (by decide +kernel), ?_⟩
  exact (Query.count_eq_length_records schema_wellFormed (by decide) (by decide) (by decide) rfl
    rfl hpage).1

end Sample

end ResourceQuery
