import ResourceQuery.Proofs.Filter.Kept
import ResourceQuery.Proofs.Filter.Reading
import ResourceQuery.Proofs.Query.Distinct

/-!
# Records that are shown once

When the rows of an answer show every record once. Joins of relations to one record do not repeat a
row, and neither do conditions that read nothing beside the entity.

* `FilterCompiler.sources_criteria?`, `FilterCompiler.sources_filter?`: what base criteria and
  filters read;
* `Query.ComparesColumns`: the requests whose filter reads nothing beside the entity;
* `Query.exists_recordIds`: the rows of such a request show different records.
-/

namespace ResourceQuery

/-! ## What conditions read -/

namespace FilterCompiler

variable {k : FilterCompiler}

/-- Base criteria read nothing beside the entity. -/
theorem sources_criteria? {r : Reach} {entries : List (String × Value)} {ps : List Predicate}
    (h : k.criteria? r entries = .ok ps) :
    ∀ p ∈ ps, p.sources ⊆ [r.source] := by
  rw [forall_of_mapM_eq_ok h]
  rintro ⟨name, v⟩ - p hp
  obtain ⟨field, hfield, hp⟩ := bind_eq_ok.1 hp
  cases Reach.field?_eq_ok.1 hfield with
  | column => exact FilterOperator.sources_equals? hp
  | relation => exact absurd hp FilterOperator.equals?_relation
  | ofClass =>
    rw [FilterOperator.equals?_ofClass_eq_ok hp, Predicate.sources_ofTruth]
    exact List.nil_subset _

/-- Conditions on related rows are statements of their own, so a filter reads what its clauses on
the entity itself do. -/
theorem sources_filter? {e : Entity} {clauses : List FilterClause} {ps : List Predicate}
    (hvalues : ∀ c ∈ clauses, c.values ≠ [])
    (hlike : ∀ c ∈ clauses, c.operator = .like → c.path.relations = [] →
      (e.column? (k.naming.toStorage c.path.field)).isSome)
    (h : k.filter? e clauses = .ok ps) : ∀ p ∈ ps, p.sources ⊆ [e.reach.source] := by
  rcases filter?_eq_ok.1 h with ⟨-, rfl⟩ | ⟨-, conditions, hconditions, rfl⟩
  · simp
  · obtain ⟨-, hparts⟩ := conditions?_eq_ok.1 hconditions
    rw [List.forall_mem_singleton]
    refine List.Subset.trans (Predicate.sources_simplified_subset _) ?_
    rw [Predicate.sources_allOf]
    refine Predicate.flatMap_sources_subset ?_
    rw [forall_of_mapM_eq_ok hparts, Part.forall_ofEntries]
    refine ⟨fun c hc p hp => ?_, fun name _ p hp => ?_⟩
    · obtain ⟨c', hc', hentry⟩ := List.mem_map.1 (Part.mem_localClauses.1 hc)
      obtain ⟨hlocal, rfl⟩ := Prod.mk.inj hentry
      exact sources_clause? (r := e.reach) (hvalues c' hc')
        (fun hop => hlike c' hc' hop hlocal) hp
    · obtain ⟨relationship, target, criteria, -, -, rfl⟩ := part?_relation_eq_ok.1 hp
      exact List.nil_subset _

end FilterCompiler

/-! ## Records -/

theorem flatMap_replicate_eq_filter {α : Type} {n : α → Nat} {xs : List α}
    (h : ∀ x ∈ xs, n x ≤ 1) :
    (xs.flatMap fun x => List.replicate (n x) x) = xs.filter fun x => 0 < n x := by
  induction xs with
  | nil => rfl
  | cons x xs ih =>
    rw [List.forall_mem_cons] at h
    rw [List.flatMap_cons, ih h.2, List.filter_cons]
    rcases Nat.le_one_iff_eq_zero_or_eq_one.1 h.1 with hx | hx <;> simp [hx]

namespace Statement.AsksRecords

variable {schema : Schema} {s : Statement} {db : Database}

/-- A row of the entity is shown at most once. -/
theorem shownRows_eq_filter (h : s.AsksRecords schema) (hs : schema.WellFormed)
    (he : s.entity ∈ schema.entities) (hone : db.ToOne schema)
    (hsources : ∀ p ∈ s.conditions, p.sources ⊆ [s.root]) :
    shownRows db s = (db.rows s.entity.table).filter fun x =>
      0 < (joinFrames db s.joins [(s.root, some x)]).length * (s.rowFrames db x).length := by
  have hstrays : s.strays = [] := by
    have hroot : (s.conditions.flatMap (·.sources)).filter (· ≠ s.root) = [] := by
      refine List.filter_eq_nil_iff.2 fun t ht => ?_
      simpa using Predicate.flatMap_sources_subset hsources ht
    rw [strays, hroot]
    rfl
  refine flatMap_replicate_eq_filter fun x hx => ?_
  obtain ⟨c, hjoined⟩ := h.joined
  obtain ⟨f, hf, -⟩ := hjoined.joinFrames_eq_singleton hs he hone hx
  have hrow : (s.rowFrames db x).length ≤ 1 := by
    rw [rowFrames, hstrays]
    exact List.length_filter_le _ _
  have hjoins : (joinFrames db s.joins [(s.root, some x)]).length = 1 := congrArg List.length hf
  rw [hjoins, Nat.one_mul]
  exact hrow

/-- The shown rows stay in their order. -/
theorem shownRows_sublist (h : s.AsksRecords schema) (hs : schema.WellFormed)
    (he : s.entity ∈ schema.entities) (hone : db.ToOne schema)
    (hsources : ∀ p ∈ s.conditions, p.sources ⊆ [s.root]) :
    (shownRows db s).Sublist (db.rows s.entity.table) := by
  rw [h.shownRows_eq_filter hs he hone hsources]
  exact List.filter_sublist

/-- Without a page the rows of the answer show different records. -/
theorem exists_recordIds (h : s.AsksRecords schema) (hs : schema.WellFormed)
    (he : s.entity ∈ schema.entities) (hone : db.ToOne schema) (hkeyed : db.Keyed s.entity)
    (hsources : ∀ p ∈ s.conditions, p.sources ⊆ [s.root]) :
    ∃ ids : List RecordId, ids.Nodup ∧
      (s.groups db).map (CompiledQuery.entityRecord s.entity ∘ s.answerRow) =
        ids.map .record := by
  obtain ⟨xs, hxs, hrecords⟩ := h.records_perm db
  refine ⟨_, ?_, hrecords⟩
  have hsub := (h.shownRows_sublist hs he hone hsources).map s.entity.recordId
  exact (hxs.map _).nodup_iff.2 (hkeyed.sublist hsub)

end Statement.AsksRecords

namespace Query

/-- Whether a request is for rows of values, or every `like` of its filter on the entity itself is
on a column. -/
def ComparesColumns (q : Query) (request : Request) : Prop :=
  ∀ parameters r, Parameters.parse request.params = .ok parameters →
    parameters.readRequest? = .ok r → isRowMode (q.fieldsOf request r) r.group = true ∨
      ∀ c ∈ r.clauses, c.operator = .like → c.path.relations = [] →
        (q.entity.column? (q.naming.toStorage c.path.field)).isSome

variable {q : Query} {request : Request} {r : ReadRequest} {s : Statement}
  {loads : List RelationLoad} {isRestricted : Bool} {criteria : List (String × Value)}
  {fields : List SelectedField}

theorem values_ne_nil_of_readRequest? {p : Parameters} (h : p.readRequest? = .ok r) :
    ∀ c ∈ r.clauses, c.values ≠ [] := by
  simp only [Parameters.readRequest?, bind_eq_ok] at h
  obtain ⟨clauses, hclauses, _, -, _, -, _, -, _, -, h⟩ := h
  cases h
  exact Filter.values_ne_nil_of_read? (mapError_eq_ok.1 hclauses)

/-- The conditions of such a request for records read nothing beside the entity. -/
theorem sources_statement? (hvalues : ∀ c ∈ r.clauses, c.values ≠ [])
    (hlike : ∀ c ∈ r.clauses, c.operator = .like → c.path.relations = [] →
      (q.entity.column? (q.naming.toStorage c.path.field)).isSome)
    (h : q.statement? criteria r fields = .ok (s, loads, isRestricted)) :
    ∀ p ∈ s.conditions, p.sources ⊆ [s.root] := by
  obtain ⟨base, ps, _, _, _, _, hbase, hps, -, -, -, rfl, -⟩ := statement?_eq_ok h
  intro p hp
  rcases List.mem_append.1 hp with hp | hp
  · exact FilterCompiler.sources_criteria? hbase p hp
  · exact FilterCompiler.sources_filter? hvalues hlike hps p hp

end Query

end ResourceQuery
