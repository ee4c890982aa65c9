import ResourceQuery.Proofs.Query.Count
import ResourceQuery.Proofs.Query.Records
import ResourceQuery.Proofs.Sort.Keys
import ResourceQuery.Proofs.Statement.Faults

/-!
# Sorted records

Sort keys move the rows of a statement for records and do nothing else to them.

* `Statement.unsorted`: a statement without its order and the joins of it;
* `Query.unsorted_statement?`: a request without sort keys has that statement;
* `Statement.AsksRecords.shownRows_unsorted`: the joins of sort keys neither drop rows nor repeat
  them;
* `Statement.AsksRecords.pairwise_groups`: the rows stand in the order of the sort keys;
* `Query.sorted_rows`: what the store answers with sort keys and without them.
-/

namespace ResourceQuery

/-- A statement without its order and the joins of it. -/
def Statement.unsorted (s : Statement) : Statement := { s with joins := [], order := [] }

/-- A key on an attribute writes no values. -/
theorem SortCompiler.Compiles.constants_eq_nil {k : SortCompiler} {e : Entity} {c : JoinCache}
    {key : SortKey} {o : OrderKey} (h : Compiles k e c key o)
    (hattribute : k.IsAttribute e key) : o.constants = [] := by
  cases h with
  | behindMany hcrosses ho =>
    obtain ⟨hops, last, column, -, -, rfl⟩ := collectionKey?_eq_ok hattribute ho
    rfl
  | onEntity hlocal ho =>
    obtain ⟨column, -, rfl⟩ := column_of_localKey? (hattribute.2 hlocal) ho
    rfl
  | behindOne hone hends hleads hfield ho =>
    obtain ⟨column, -, rfl⟩ := column_of_fieldKey? hfield ho
    rfl

namespace Statement.AsksRecords

variable {k : SortCompiler} {s : Statement} {db : Database} {c : JoinCache} {keys : List SortKey}

theorem unsorted {schema : Schema} (h : s.AsksRecords schema) : s.unsorted.AsksRecords schema where
  selection := h.selection
  joined := ⟨{}, .none⟩
  unjoined := h.unjoined
  group := h.group

/-- The joins of sort keys neither drop rows nor repeat them. -/
theorem shownRows_unsorted {schema : Schema} (h : s.AsksRecords schema) (hs : schema.WellFormed)
    (he : s.entity ∈ schema.entities) (hone : db.ToOne schema) :
    shownRows db s.unsorted = shownRows db s := by
  apply List.flatMap_congr
  intro x hx
  obtain ⟨c, hjoined⟩ := h.joined
  obtain ⟨f, hf, -⟩ := hjoined.joinFrames_eq_singleton hs he hone hx
  have hlen : (joinFrames db s.joins [(s.root, some x)]).length = 1 := congrArg List.length hf
  rw [hlen]
  rfl

/-- Without conditions and joins every row of the entity is shown once. -/
theorem shownRows_of_conditions_nil (hjoins : s.joins = []) (hconditions : s.conditions = []) :
    shownRows db s = db.rows s.entity.table := by
  have hstrays : s.strays = [] := by
    rw [strays, hconditions]
    rfl
  have hframes : ∀ x, s.rowFrames db x = [[(s.root, some x)]] := by
    intro x
    rw [rowFrames, hstrays, hconditions]
    rfl
  have hone : ∀ x, List.replicate ((joinFrames db s.joins [(s.root, some x)]).length *
      (s.rowFrames db x).length) x = [x] := by
    intro x
    rw [hjoins, hframes]
    rfl
  simp only [shownRows, hone]
  exact List.flatMap_singleton' _

/-- Without an order the rows of the answer are those of the frames, in their order. -/
theorem rows_unsorted {schema : Schema} (h : s.AsksRecords schema) (hlimit : s.limit = none)
    (hoffset : s.offset = none) :
    s.unsorted.rows db = (shownRows db s.unsorted).map fun x => .record (some x) := by
  obtain ⟨columns, -, hselection⟩ := h.selection
  have hrows := congrArg (List.map AnswerRow.record) (h.unsorted.map_row?_eq_shownRows db)
  have hselection' : s.unsorted.selection = .records columns := hselection
  have hlimit' : s.unsorted.limit = none := hlimit
  have hoffset' : s.unsorted.offset = none := hoffset
  rw [List.map_map, List.map_map] at hrows
  rw [rows_records hselection' h.group rfl, hlimit', hoffset']
  exact hrows

/-- The rows of the answer stand in the order of the sort keys. -/
theorem pairwise_groups (h : s.AsksRecords k.schema) (hs : k.schema.WellFormed)
    (he : s.entity ∈ k.schema.entities) (hone : db.ToOne k.schema)
    (hproper : ∀ e ∈ k.schema.entities, db.Proper e) (hkeyed : db.PrimaryKeyed s.entity)
    (htraced : k.Traced s.entity c s.joins)
    (hterms : k.CompilesAll s.entity c keys s.order)
    (hattribute : ∀ key ∈ keys, k.IsAttribute s.entity key)
    (hplain : ∀ key ∈ keys, ∀ name ∈ key.path.relations, IsPlain name) :
    (s.groups db).Pairwise fun a b => ∀ x ∈ a.shown.row? s.root, ∀ y ∈ b.shown.row? s.root,
      k.NotAfter db s.entity keys x y := by
  set groups := s.unorderedGroups
    (if s.readsBackwards then (s.frames db).reverse else s.frames db) with hgroups
  have hshows : ∀ g ∈ groups, ∃ x ∈ db.rows s.entity.table, k.Shows db s.entity c g.shown x := by
    intro g hg
    have hframe : g.shown ∈ s.frames db := by
      simp only [hgroups, unorderedGroups, h.isGrouped_eq_false, Bool.not_false, if_true,
        List.mem_map] at hg
      obtain ⟨f, hf, rfl⟩ := hg
      split at hf
      · exact List.mem_reverse.1 hf
      · exact hf
    exact h.exists_shows htraced hs he hone hframe
  have hcells : ∀ g ∈ groups, ∀ x ∈ g.shown.row? s.root, x ∈ db.rows s.entity.table ∧
      s.order.map (·.key.cell db g) = keys.map (k.value db s.entity · x) := by
    intro g hg x hx
    obtain ⟨y, hy, hshow⟩ := hshows g hg
    obtain rfl : y = x := Option.some.inj (hshow.root.symm.trans hx)
    exact ⟨hy, hterms.cells_eq hattribute hplain hkeyed hy hshow⟩
  have hsorted : (s.groups db).Pairwise fun a b => keysOrder ((s.order.map (·.descending)).zip
      ((s.order.map (·.key.cell db a)).zip (s.order.map (·.key.cell db b)))) ≠ .gt := by
    refine pairwise_sortByKeys _ (fun g hg => ?_) fun g _ => List.length_map ..
    obtain ⟨x, hx, hshow⟩ := hshows g hg
    rw [(hcells g hg x hshow.root).2]
    intro cell hcell
    obtain ⟨key, -, rfl⟩ := List.mem_map.1 hcell
    exact SortCompiler.proper_value key hproper he hx
  refine hsorted.imp_of_mem fun {a b} ha hb hab x hx y hy => ?_
  have hmem : ∀ g ∈ s.groups db, g ∈ groups := fun g hg => (sortByKeys_perm _ _ _).mem_iff.1 hg
  rw [SortCompiler.notAfter_iff, ← (hcells a (hmem a ha) x hx).2, ← (hcells b (hmem b hb) y hy).2,
    ← hterms.directions_eq]
  exact hab

/-- The keys of an order by attributes are columns of sources that the statement reads. -/
theorem keys_subset_sources (h : s.AsksRecords k.schema) (htraced : k.Traced s.entity c s.joins)
    (hterms : k.CompilesAll s.entity c keys s.order)
    (hattribute : ∀ key ∈ keys, k.IsAttribute s.entity key) :
    ∀ t ∈ s.order.filterMap (·.key.term?), t.isAggregate = false ∧ t.sources ⊆ s.sources := by
  have hroot := h.root_mem_sources
  have hreading : ∀ p ∈ c.readings, p.2.source ∈ s.sources := by
    intro p hp
    have hmem := htraced.joined.source_mem hp
    have hne : s.joins ≠ [] := by
      rintro hnil
      rw [hnil] at hmem
      cases hmem
    rw [mem_sources, joinedSources, htraced.joined.chains_eq, if_neg hne]
    simp only [List.flatMap_singleton, Chain.sources, List.flatMap_map]
    exact .inl (List.mem_cons_of_mem _ hmem)
  intro t ht
  obtain ⟨o, ho, ht⟩ := List.mem_filterMap.1 ht
  obtain ⟨key, hkey, hcompiles⟩ := hterms.exists_of_mem ho
  obtain ⟨r, column, hr, hterm⟩ := hcompiles.exists_column (hattribute key hkey) ht
  rw [hterm]
  refine ⟨rfl, fun t ht => ?_⟩
  rw [List.mem_singleton.1 ht]
  rcases hr with rfl | ⟨path, hmem⟩
  · exact hroot
  · exact hreading _ hmem

/-- The store takes an order by attributes whenever it takes the statement without it. -/
theorem runFault?_sorted (h : s.AsksRecords k.schema) (htraced : k.Traced s.entity c s.joins)
    (hterms : k.CompilesAll s.entity c keys s.order)
    (hattribute : ∀ key ∈ keys, k.IsAttribute s.entity key)
    (hfault : s.unsorted.runFault? db = none) : s.runFault? db = none := by
  have hkeys := h.keys_subset_sources htraced hterms hattribute
  obtain ⟨columns, -, hselection⟩ := h.selection
  have hshown : s.selectedTerms = [] := by rw [selectedTerms, hselection]
  refine runFault?_of_isTotal (fun t ht => ?_) (by simp [hshown]) ?_
  · rw [terms, hshown, List.nil_append] at ht
    cases t <;> first | rfl | cases (hkeys _ ht).1
  obtain ⟨hlabel, -, -, hvalues⟩ := fault?_eq_none.1 (runFault?_eq_none.1 hfault).1
  refine fault?_eq_none.2 ⟨hlabel, fun t ht => ?_, ?_, ?_⟩
  · rw [h.group, List.flatMap_nil, List.nil_append] at ht
    obtain ⟨term, hterm, ht⟩ := List.mem_flatMap.1 ht
    exact (hkeys term hterm).2 ht
  · have hnone : (s.order.filterMap (·.key.term?)).any (·.isAggregate) = false := by
      rw [List.any_eq_false]
      intro t ht
      simp [(hkeys t ht).1]
    rw [hnone]
    rfl
  · have hconstants : s.order.flatMap (·.key.constants) = [] := by
      refine List.flatMap_eq_nil_iff.2 fun o ho => ?_
      obtain ⟨key, hkey, hcompiles⟩ := hterms.exists_of_mem ho
      exact hcompiles.constants_eq_nil (hattribute key hkey)
    rw [values_pieces] at hvalues ⊢
    rw [hconstants]
    exact hvalues

end Statement.AsksRecords

namespace Query

variable {q : Query} {criteria : List (String × Value)} {r : ReadRequest}
  {fields : List SelectedField} {s : Statement} {loads : List RelationLoad} {isRestricted : Bool}
  {db : Database}

/-- A request without its sort keys has the statement without the order and its joins. -/
theorem unsorted_statement? (h : q.statement? criteria r fields = .ok (s, loads, isRestricted)) :
    q.statement? criteria { r with sortKeys := [] } fields =
      .ok (s.unsorted, loads, isRestricted) := by
  rw [statement?_eq] at h ⊢
  simp only [bind_eq_ok, Prod.exists] at h ⊢
  obtain ⟨base, hbase, loads', hloads, ps, hps, group, hgroup, joins, order, horder, selection,
    isRestricted', hselection, h⟩ := h
  cases h
  exact ⟨base, hbase, loads, hloads, ps, hps, group, hgroup, [], [], rfl, selection, isRestricted,
    hselection, rfl⟩

/-- **Sort keys only reorder, and reorder correctly.** A request for records whose sort keys are on
attributes (with no dots in the names of relations, as in all that are read) has, without them, a
statement of its own, and whenever the store answers that one it answers with the same rows of the
entity, each as often, in the order of the keys: lexicographic, and the first key first. Every row
is there at most once when no `like` of the filter is on a relation, and there are no others than
these when nothing is filtered. The value of a key is the attribute at the end of its path, and on a
path through a relation to many the least one along it, or the greatest one for a descending key;
null comes first, and last for a descending key. So where no key leads through a relation to many,
turning all keys around turns the order around. -/
theorem sorted_rows (hs : q.schema.WellFormed) (he : q.entity ∈ q.schema.entities)
    (hone : db.ToOne q.schema) (hproper : ∀ e ∈ q.schema.entities, db.Proper e)
    (hkeyed : db.PrimaryKeyed q.entity)
    (hplain : ∀ key ∈ r.sortKeys, ∀ name ∈ key.path.relations, IsPlain name)
    (hattribute : ∀ key ∈ r.sortKeys, q.sorts.IsAttribute q.entity key)
    (hmode : isRowMode fields r.group = false)
    (h : q.statement? criteria r fields = .ok (s, loads, isRestricted)) :
    ∃ s₀, q.statement? criteria { r with sortKeys := [] } fields = .ok (s₀, loads, isRestricted) ∧
      (∀ rows₀, s₀.run db = .ok rows₀ → ∃ xs₀ xs : List StoredRow,
        rows₀ = xs₀.map (fun x => .record (some x)) ∧
        s.run db = .ok (xs.map fun x => .record (some x)) ∧
        xs.Perm xs₀ ∧ xs.Pairwise (q.sorts.NotAfter db q.entity r.sortKeys) ∧
        ((∀ c ∈ r.clauses, c.values ≠ [] ∧ (c.operator = .like → c.path.relations = [] →
          (q.entity.column? (q.naming.toStorage c.path.field)).isSome)) →
            xs₀.Sublist (db.rows q.entity.table)) ∧
        (criteria = [] → r.clauses = [] → xs₀ = db.rows q.entity.table)) ∧
      (∀ key ∈ r.sortKeys, ∀ x ∈ db.rows q.entity.table,
        q.sorts.IsValue db q.entity key x (q.sorts.value db q.entity key x)) ∧
      (∀ key ∈ r.sortKeys, ∀ x y, q.sorts.value db q.entity key x = .null →
        q.sorts.value db q.entity key y ≠ .null →
          q.sorts.order db q.entity key x y = if key.descending then .gt else .lt) ∧
      ((∀ key ∈ r.sortKeys, q.sorts.crossesMany q.entity key.path.relations = false) → ∀ x y,
        (q.sorts.NotAfter db q.entity (r.sortKeys.map SortKey.flip) x y ↔
          q.sorts.NotAfter db q.entity r.sortKeys y x)) := by
  have hasks := asksRecords_statement? (hs.entities _ he) hplain hmode h
  have hentity := entity_statement? h
  have he' : s.entity ∈ q.schema.entities := hentity ▸ he
  refine ⟨s.unsorted, unsorted_statement? h, fun rows₀ hrun => ?_,
    fun key _ x hx => SortCompiler.isValue_value he hone hproper hx,
    fun key _ x y hx hy => SortCompiler.order_of_null hx hy,
    fun hmany x y => SortCompiler.notAfter_flip hmany⟩
  obtain ⟨c, htraced, hterms⟩ : ∃ c, q.sorts.Traced s.entity c s.joins ∧
      q.sorts.CompilesAll s.entity c r.sortKeys s.order := by
    obtain ⟨_, _, _, _, _, _, -, -, -, horder, -, rfl, -⟩ := statement?_eq_ok h
    exact SortCompiler.traced_order? hplain horder
  have hattribute' : ∀ key ∈ r.sortKeys, q.sorts.IsAttribute s.entity key := hentity ▸ hattribute
  obtain ⟨hlimit, hoffset⟩ := unpaged_statement? h
  obtain ⟨hfault, rfl⟩ := Statement.run_eq_ok.1 hrun
  obtain ⟨xs, hperm, hrows⟩ := hasks.rows_perm db
  have hsorted := hasks.pairwise_groups hs he' hone hproper (hentity ▸ hkeyed) htraced hterms
    hattribute' hplain
  refine ⟨Statement.AsksRecords.shownRows db s.unsorted, xs, hasks.rows_unsorted hlimit hoffset,
    ?_, ?_, ?_, ?_, ?_⟩
  · have hanswer := congrArg (List.map AnswerRow.record) hrows
    rw [List.map_map, List.map_map] at hanswer
    rw [Statement.run_eq_ok, rows_statement? h, List.map_congr_left fun g _ => hasks.answerRow_eq g]
    exact ⟨hasks.runFault?_sorted htraced hterms hattribute' hfault, hanswer.symm⟩
  · rw [hasks.shownRows_unsorted hs he' hone]
    exact hperm
  · have hpairs : ((s.groups db).map (·.shown.row? s.root)).Pairwise fun a b => ∀ x ∈ a, ∀ y ∈ b,
        q.sorts.NotAfter db s.entity r.sortKeys x y := List.pairwise_map.2 hsorted
    rw [hrows, List.pairwise_map] at hpairs
    exact hpairs.imp fun hxy => hentity ▸ hxy _ rfl _ rfl
  · intro hclauses
    rw [hasks.shownRows_unsorted hs he' hone, ← hentity]
    exact hasks.shownRows_sublist hs he' hone
      (sources_statement? (fun c hc => (hclauses c hc).1) (fun c hc => (hclauses c hc).2) h)
  · intro hcriteria hclauses
    rw [← hentity]
    refine Statement.AsksRecords.shownRows_of_conditions_nil rfl ?_
    obtain ⟨_, _, _, _, _, _, hbase, hps, -, -, -, rfl, -⟩ := statement?_eq_ok h
    rw [hcriteria] at hbase
    rw [hclauses] at hps
    cases hbase
    cases hps
    rfl

end Query

namespace Sample

/-- Pets by their toys, then by the last name among the pets of their owners, and then by their own
name, backwards. -/
def petsInOrder : ReadRequest where
  clauses := []
  sortKeys := [⟨⟨["toy"], "type"⟩, false⟩, ⟨⟨["pet_owner", "pets"], "name"⟩, true⟩,
    ⟨⟨[], "name"⟩, true⟩]
  projections := []
  group := []
  includes := []
  page := none

/-- All pets are there, and in that order. -/
theorem sorted_petsInOrder :
    ∃ (s : Statement) (loads : List RelationLoad) (isRestricted : Bool) (xs : List StoredRow),
      pets.statement? [] petsInOrder [] = .ok (s, loads, isRestricted) ∧
      s.run database = .ok (xs.map fun x => .record (some x)) ∧ xs.Perm petRows ∧
        xs.Pairwise (pets.sorts.NotAfter database pet petsInOrder.sortKeys) := by
  obtain ⟨s, loads, isRestricted, h⟩ : ∃ s loads isRestricted,
      pets.statement? [] petsInOrder [] = .ok (s, loads, isRestricted) := ⟨_, _, _, rfl⟩
  obtain ⟨s₀, hs₀, hsorted, -⟩ := Query.sorted_rows schema_wellFormed (by decide) database_toOne
    (by decide) (by decide) (by decide) (by decide) rfl h
  have hrun : s₀.run database = .ok (s₀.rows database) := by
    cases hs₀
    exact Statement.run_eq_ok.2 ⟨Statement.runFault?_of_isTotal (by decide) (by decide) rfl, rfl⟩
  obtain ⟨xs₀, xs, -, hxs, hperm, hpairs, -, hall⟩ := hsorted _ hrun
  obtain rfl := hall rfl rfl
  exact ⟨s, loads, isRestricted, xs, h, hxs, hperm, hpairs⟩

end Sample

end ResourceQuery
