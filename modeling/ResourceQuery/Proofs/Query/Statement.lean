import ResourceQuery.Proofs.Query.Compiled
import ResourceQuery.Proofs.Sort.Records

/-!
# The statement of a request

What the statement of a request is made of, and what kind of statement that is.

* `FieldCompiler.restriction?_cases`, `FieldCompiler.columns?_eq_ok`: the columns of records;
* `SelectedField.term?_cases`, `FieldCompiler.selectedTerm?_cases`: what a field of rows is selected
  as;
* `Query.statement?_eq`, `Query.statement?_eq_ok`: every part of the statement comes from one
  parameter;
* `Query.asksRecords_statement?`: without groups and aggregates it asks for records;
* `Query.rowTerms_statement?`: with them it asks for rows;
* `Query.group_statement?`, `Query.nil_of_group_nil`: what these are grouped by.
-/

namespace ResourceQuery

theorem Entity.WellFormed.restrictedTo_ne_nil {e : Entity} (he : e.WellFormed)
    (fields : List String) : e.restrictedTo fields ≠ [] := by
  obtain ⟨field, rest, hkey⟩ := List.exists_cons_of_ne_nil he.key_ne_nil
  have hmem : field ∈ e.key := by rw [hkey]; exact List.mem_cons_self ..
  obtain ⟨c, hc⟩ := Option.isSome_iff_exists.1 (he.column_of_key field hmem)
  have hname : c.field = field := by simpa using List.find?_some hc
  exact List.ne_nil_of_mem (List.mem_filter.2
    ⟨List.mem_of_find?_eq_some hc, by simpa using .inl (hname ▸ hmem)⟩)

namespace FieldCompiler

variable {e : Entity} {named kept : List String} {columns : Option (List Column)}

/-- Nothing restricts the columns of records, or those are read that are named or kept. Only fields
can be named. -/
theorem restriction?_cases (h : restriction? e named kept = .ok columns) :
    (named = [] ∧ kept = [] ∧ columns = none) ∨
      (∀ name ∈ named, (e.column? name).isSome) ∧
        columns = some (e.restrictedTo (named ++ kept)) := by
  unfold restriction? at h
  split at h
  · next hempty =>
    cases h
    rw [List.isEmpty_iff, List.append_eq_nil_iff] at hempty
    exact .inl ⟨hempty.1, hempty.2, rfl⟩
  · split at h
    · next hfields =>
      cases h
      exact .inr ⟨List.all_eq_true.1 hfields, rfl⟩
    · cases h

/-- Records without fields have all columns, and fields those that they name or that are kept. -/
theorem columns?_eq_ok {k : FieldCompiler} {fields : List SelectedField} :
    k.columns? e fields kept = .ok columns ↔ fields = [] ∧ columns = none ∨
      fields ≠ [] ∧ ∃ named, k.fieldNames? e false fields = .ok named ∧
        restriction? e named kept = .ok columns := by
  unfold columns?
  cases fields <;> simp [bind_eq_ok, @eq_comm _ columns]

end FieldCompiler

theorem Entity.WellFormed.columns?_ne_nil {e : Entity} (he : e.WellFormed) {k : FieldCompiler}
    {fields : List SelectedField} {kept : List String} {columns : List Column}
    (h : k.columns? e fields kept = .ok (some columns)) : columns ≠ [] := by
  obtain ⟨-, hnone⟩ | ⟨-, named, -, h⟩ := FieldCompiler.columns?_eq_ok.1 h
  · cases hnone
  · obtain ⟨-, -, hnone⟩ | ⟨-, hcolumns⟩ := FieldCompiler.restriction?_cases h
    · cases hnone
    · cases hcolumns
      exact he.restrictedTo_ne_nil _

theorem Parameters.plain_of_readRequest? {p : Parameters} {r : ReadRequest}
    (h : p.readRequest? = .ok r) :
    ∀ key ∈ r.sortKeys, ∀ name ∈ key.path.relations, IsPlain name := by
  simp only [readRequest?, bind_eq_ok] at h
  obtain ⟨_, -, keys, hkeys, _, -, _, -, _, -, h⟩ := h
  cases h
  exact SortKeys.plain_of_read? (mapError_eq_ok.1 hkeys)

/-! ## The terms of fields -/

/-- What an aggregate is: the number of rows for a star, whatever the function, or a function of a
field. -/
theorem SelectedField.term?_cases {schema : Schema} {r : Reach} {f : SelectedField} {t : Term}
    (h : f.term? schema r = .ok t) :
    (∃ function, f.aggregate = some (function, "*") ∧ t = .countAll) ∨
    ∃ function argument field, argument ≠ "*" ∧ f.aggregate = some (function, argument) ∧
      r.field? schema argument = .ok field ∧ t = .aggregate function field.operand := by
  unfold term? at h
  split at h
  · cases h
  · next function argument haggregate =>
    split at h
    · next hstar =>
      cases h
      exact .inl ⟨function, hstar ▸ haggregate, rfl⟩
    · next hstar =>
      obtain ⟨field, hfield, h⟩ := bind_eq_ok.1 h
      obtain ⟨x, hx, h⟩ := bind_eq_ok.1 h
      obtain ⟨-, rfl⟩ := ResolvedField.argument?_eq_ok.1 hx
      cases h
      exact .inr ⟨function, argument, field, hstar, haggregate, hfield, rfl⟩

/-- What a field is selected as: an aggregate under the name of its function, or the field under its
stored name, which is none of a class attribute. -/
theorem FieldCompiler.selectedTerm?_cases {k : FieldCompiler} {e : Entity} {f : SelectedField}
    {t : SelectedTerm} (h : k.selectedTerm? e f = .ok t) :
    (f.isAggregate = true ∧ ∃ term, f.term? k.schema e.reach = .ok term ∧ t = ⟨term, f.label⟩) ∨
    (f.isAggregate = false ∧ ∃ field,
      e.reach.field? k.schema (k.naming.toStorage f.name) = .ok field ∧
        (∀ a, field ≠ .ofClass a) ∧ t = ⟨.plain field.operand, k.naming.toStorage f.name⟩) := by
  unfold selectedTerm? at h
  split at h
  · next haggregate =>
    obtain ⟨term, hterm, rfl⟩ := map_eq_ok.1 h
    exact .inl ⟨haggregate, term, hterm, rfl⟩
  · next hplain =>
    obtain ⟨field, hfield, h⟩ := bind_eq_ok.1 h
    obtain ⟨x, hx, h⟩ := bind_eq_ok.1 h
    obtain ⟨hclass, rfl⟩ := ResolvedField.shown?_eq_ok.1 hx
    cases h
    exact .inr ⟨Bool.eq_false_iff.2 hplain, field, hfield, hclass, rfl⟩

theorem SelectedField.aggregate_eq_none {f : SelectedField} (h : f.isAggregate = false) :
    f.aggregate = none := by
  simpa [isAggregate] using h

/-! ## The parts of a statement -/

namespace Query

variable {q : Query} {criteria : List (String × Value)} {r : ReadRequest}
  {fields : List SelectedField} {s : Statement} {loads : List RelationLoad} {isRestricted : Bool}

/-- The related records to load with those of a request. Rows of values have none. -/
def loads? (q : Query) (fields : List SelectedField) (r : ReadRequest) :
    Except QueryError (List RelationLoad) :=
  if isRowMode fields r.group then .ok []
  else (q.includes r.projections).loads? q.entity (IncludeTree.ofPaths r.includes)

/-- The parts of a statement, in the order in which they are looked up. -/
theorem statement?_eq : q.statement? criteria r fields = (do
    let base ← q.filters.criteria? q.entity.reach criteria
    let loads ← q.loads? fields r
    let conditions ← q.filters.filter? q.entity r.clauses
    let group ← q.fields.group? q.entity r.group
    let (joins, order) ← q.sorts.order? q.entity r.sortKeys
    let (selection, isRestricted) ← q.selection? (isRowMode fields r.group) fields r.group
      (q.includes r.projections) (IncludeTree.ofPaths r.includes)
    .ok (⟨q.entity, selection, joins, base ++ conditions, group, order, none, none⟩, loads,
      isRestricted)) := by
  unfold statement? loads?
  cases isRowMode fields r.group <;> rfl

theorem statement?_eq_ok
    (h : q.statement? criteria r fields = .ok (s, loads, isRestricted)) :
    ∃ base ps group joins order selection,
      q.filters.criteria? q.entity.reach criteria = .ok base ∧
      q.filters.filter? q.entity r.clauses = .ok ps ∧
      q.fields.group? q.entity r.group = .ok group ∧
      q.sorts.order? q.entity r.sortKeys = .ok (joins, order) ∧
      q.selection? (isRowMode fields r.group) fields r.group (q.includes r.projections)
        (IncludeTree.ofPaths r.includes) = .ok (selection, isRestricted) ∧
      s = ⟨q.entity, selection, joins, base ++ ps, group, order, none, none⟩ ∧
      q.loads? fields r = .ok loads := by
  simp only [statement?_eq, bind_eq_ok, Prod.exists] at h
  obtain ⟨base, hbase, loads', hloads, ps, hps, group, hgroup, joins, order, horder, selection,
    isRestricted', hselection, h⟩ := h
  cases h
  exact ⟨base, ps, group, joins, order, selection, hbase, hps, hgroup, horder, hselection, rfl,
    hloads⟩

theorem entity_statement? (h : q.statement? criteria r fields = .ok (s, loads, isRestricted)) :
    s.entity = q.entity := by
  obtain ⟨_, _, _, _, _, _, -, -, -, -, -, rfl, -⟩ := statement?_eq_ok h
  rfl

theorem root_statement? (h : q.statement? criteria r fields = .ok (s, loads, isRestricted)) :
    s.root = q.entity.reach.source := by
  rw [Statement.root, entity_statement? h]
  rfl

/-- Records have the columns of the fields and those that relations read, or all of them. -/
theorem columns?_of_selection? {loader : IncludeCompiler} {tree : List IncludeNode}
    {group : List SelectedField} {selection : Selection}
    (h : q.selection? false fields group loader tree = .ok (selection, isRestricted)) :
    ∃ kept columns, (fields.isEmpty = false → loader.ownerFields? q.entity tree = .ok kept) ∧
      q.fields.columns? q.entity fields kept = .ok columns ∧
      selection = columns.elim (.records q.entity.columns) .records := by
  unfold selection? at h
  simp only [Bool.false_eq_true, if_false] at h
  split at h
  all_goals
    obtain ⟨kept, hkept, h⟩ := bind_eq_ok.1 h
    obtain ⟨columns, hcolumns, h⟩ := bind_eq_ok.1 h
    refine ⟨kept, columns, fun hne => by simp_all, hcolumns, ?_⟩
    cases columns <;> cases h <;> rfl

theorem selection?_records (he : q.entity.WellFormed) {loader : IncludeCompiler}
    {tree : List IncludeNode} {group : List SelectedField} {selection : Selection}
    (h : q.selection? false fields group loader tree = .ok (selection, isRestricted)) :
    ∃ columns ≠ [], selection = .records columns := by
  obtain ⟨kept, columns, -, hcolumns, rfl⟩ := columns?_of_selection? h
  cases columns with
  | none => exact ⟨_, he.columns_ne_nil, rfl⟩
  | some columns => exact ⟨columns, he.columns?_ne_nil hcolumns, rfl⟩

/-- Without groups and aggregates the statement asks for records. -/
theorem asksRecords_statement? (he : q.entity.WellFormed)
    (hplain : ∀ key ∈ r.sortKeys, ∀ name ∈ key.path.relations, IsPlain name)
    (hmode : isRowMode fields r.group = false)
    (h : q.statement? criteria r fields = .ok (s, loads, isRestricted)) :
    s.AsksRecords q.schema := by
  obtain ⟨base, ps, group, joins, order, selection, hbase, hps, hgroup, horder, hselection, rfl,
    -⟩ := statement?_eq_ok h
  rw [hmode] at hselection
  have hnil : r.group = [] := by
    simp only [isRowMode, Bool.or_eq_false_iff, Bool.not_eq_false', List.isEmpty_iff] at hmode
    exact hmode.1
  refine ⟨selection?_records he hselection, SortCompiler.joined_order? hplain horder, ?_, ?_⟩
  · intro p hp
    rcases List.mem_append.1 hp with hp | hp
    · exact FilterCompiler.mentionsOnly_criteria? hbase p hp
    · exact FilterCompiler.mentionsOnly_filter? hps p hp
  · rw [hnil] at hgroup
    cases hgroup
    rfl

/-- With groups or aggregates the statement asks for rows, of the terms of the fields. -/
theorem rowTerms_statement? (hmode : isRowMode fields r.group = true)
    (h : q.statement? criteria r fields = .ok (s, loads, isRestricted)) :
    ∃ terms, s.selection = .rows terms ∧
      q.fields.rowTerms? q.entity fields r.group = .ok terms := by
  obtain ⟨base, ps, group, joins, order, selection, -, -, -, -, hselection, rfl, -⟩ :=
    statement?_eq_ok h
  rw [hmode] at hselection
  simp only [selection?, if_true, bind_eq_ok] at hselection
  obtain ⟨terms, hterms, h⟩ := hselection
  cases h
  exact ⟨terms, rfl, hterms⟩

theorem asksRows_statement? (hmode : isRowMode fields r.group = true)
    (h : q.statement? criteria r fields = .ok (s, loads, isRestricted)) :
    ∃ terms, s.selection = .rows terms :=
  (rowTerms_statement? hmode h).imp fun _ hterms => hterms.1

/-- What rows are grouped by is what they are grouped by under one of the names. -/
theorem group_statement? (h : q.statement? criteria r fields = .ok (s, loads, isRestricted))
    {x : Operand} (hx : x ∈ s.group) :
    ∃ name field operands, q.entity.reach.field? q.schema name = .ok field ∧
      field.groupOperands? q.entity.reach = .ok operands ∧ x ∈ operands := by
  obtain ⟨_, _, _, _, _, _, -, -, hgroup, -, -, rfl, -⟩ := statement?_eq_ok h
  obtain ⟨groups, hgroups, hgroup⟩ := bind_eq_ok.1 hgroup
  cases hgroup
  obtain ⟨operands, hoperands, hx⟩ := List.mem_flatten.1 hx
  obtain ⟨f, -, hf⟩ := exists_of_mapM_eq_ok hgroups hoperands
  unfold FieldCompiler.groupOperands? at hf
  split at hf
  · cases hf
  · obtain ⟨field, hfield, hf⟩ := bind_eq_ok.1 hf
    exact ⟨_, field, operands, hfield, hf, hx⟩

/-- Without anything to group by there is no name to group by either. -/
theorem nil_of_group_nil (he : q.entity.WellFormed)
    (h : q.statement? criteria r fields = .ok (s, loads, isRestricted)) (hnil : s.group = []) :
    r.group = [] := by
  obtain ⟨_, _, _, _, _, _, -, -, hgroup, -, -, rfl, -⟩ := statement?_eq_ok h
  obtain ⟨groups, hgroups, hgroup⟩ := bind_eq_ok.1 hgroup
  cases hgroup
  by_contra hne
  obtain ⟨f, rest, hf⟩ := List.exists_cons_of_ne_nil hne
  obtain ⟨operands, hmem, hoperands⟩ := exists_mem_of_mapM_eq_ok hgroups
    (show f ∈ r.group by rw [hf]; exact List.mem_cons_self ..)
  have hempty : operands = [] := List.flatten_eq_nil_iff.1 hnil operands hmem
  unfold FieldCompiler.groupOperands? at hoperands
  split at hoperands
  · cases hoperands
  · obtain ⟨field, -, hoperands⟩ := bind_eq_ok.1 hoperands
    exact ResolvedField.groupOperands?_ne_nil he.columns_ne_nil hoperands hempty

end Query

end ResourceQuery
