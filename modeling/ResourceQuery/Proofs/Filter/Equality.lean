import ResourceQuery.Proofs.Filter.Accepted
import ResourceQuery.Proofs.Store.Content

/-!
# Equality and its negation

Which rows a clause for equality keeps, and that its negation keeps the others. In the store null is
neither equal to a value nor different from one, so the negation asks for null by itself.

* `Value.Matches`: the cells that a value of a clause stands for;
* `Value.HasCell`: the values that the store can tell from null;
* `FilterOperator.truth_eq_iff`, `FilterOperator.truth_not_iff`: what both operators are true of;
* `FilterCompiler.eq_not_complementary`: the rows that both keep are all rows, each once.
-/

namespace ResourceQuery

/-! ## Comparisons with values -/

namespace Cell

theorem isNull_of_rank_eq_one {c : Cell} (h : c.rank = 1) : c.isNull = false := by
  cases c <;> first | rfl | cases h

/-- A cell becomes null for no column. -/
theorem isNull_forColumn (type : ColumnType) (c : Cell) : (c.forColumn type).isNull = c.isNull := by
  cases c with
  | text s =>
    have hread : ((numberOfText? s).getD (text s)).isNull = (text s).isNull := by
      cases hn : numberOfText? s with
      | none => rfl
      | some n => exact isNull_of_rank_eq_one (number_of_numberOfText? hn).1
    cases type <;> first | rfl | exact hread
  | _ => cases type <;> rfl

theorem compare?_eq_true_iff {comparison : Comparison} {a b : Cell} :
    compare? comparison a b = some true ↔
      a.isNull = false ∧ b.isNull = false ∧ holdsFor comparison (order a b) = true := by
  unfold compare?
  cases a.isNull <;> cases b.isNull <;> simp

end Cell

namespace Value

/-- Whether a value of a clause stands for a cell of a column: null for a cell that is null, and
another value for the cells that are equal to it. -/
def Matches (type : ColumnType) (cell : Cell) (v : Value) : Prop :=
  if v.isNull then cell.isNull = true
  else cell.isNull = false ∧ Cell.order cell ((Cell.ofValue v).forColumn type) = .eq

/-- Whether the store tells a value from null. It has nothing for what is not a number, nor for
containers. -/
def HasCell (v : Value) : Prop := v.isNull = false → (Cell.ofValue v).isNull = false

instance (v : Value) : Decidable v.HasCell := inferInstanceAs (Decidable (_ → _))

instance (type : ColumnType) (cell : Cell) (v : Value) : Decidable (v.Matches type cell) :=
  inferInstanceAs (Decidable (ite ..))

variable {type : ColumnType} {cell : Cell} {v : Value}

theorem matches_of_isNull (h : v.isNull = true) : v.Matches type cell ↔ cell.isNull = true := by
  rw [Matches, if_pos h]

theorem matches_of_not_isNull (h : v.isNull = false) : v.Matches type cell ↔
    cell.isNull = false ∧ Cell.order cell ((Cell.ofValue v).forColumn type) = .eq := by
  rw [Matches, if_neg (by simp [h])]

end Value

namespace FilterOperator

variable {type : ColumnType} {cell : Cell} {values : List Value} {v : Value}

theorem compared_eq_iff (hv : v.isNull = false) (hcell : v.HasCell) :
    compared type cell .eq v = some true ↔ v.Matches type cell := by
  rw [compared, Cell.compare?_eq_true_iff, Cell.isNull_forColumn, hcell hv,
    Value.matches_of_not_isNull hv]
  simp [Cell.holdsFor]

theorem compared_ne_iff (hv : v.isNull = false) (hcell : v.HasCell)
    (hpresent : cell.isNull = false) :
    compared type cell .ne v = some true ↔ ¬v.Matches type cell := by
  rw [compared, Cell.compare?_eq_true_iff, Cell.isNull_forColumn, hcell hv,
    Value.matches_of_not_isNull hv]
  simp [Cell.holdsFor, hpresent]

/-- Equality is true of the cells that some value stands for. -/
theorem truth_eq_iff (hcells : ∀ v ∈ values, v.HasCell) :
    eq.truth type cell values = some true ↔ ∃ v ∈ values, v.Matches type cell := by
  simp only [truth, anyTruth_eq_true_iff, List.mem_map, exists_exists_and_eq_and]
  refine exists_congr fun v => and_congr_right fun hv => ?_
  cases hnull : v.isNull with
  | true => simp [Value.matches_of_isNull hnull]
  | false => simpa using compared_eq_iff hnull (hcells v hv)

/-- The negation is true of the cells that no value stands for. Comparisons say nothing of null,
which the negation excludes or keeps by itself. -/
theorem truth_not_iff (hcells : ∀ v ∈ values, v.HasCell) :
    not.truth type cell values = some true ↔ ¬∃ v ∈ values, v.Matches type cell := by
  have hothers : cell.isNull = false →
      (allTruth ((values.filter (!·.isNull)).map (compared type cell .ne)) = some true ↔
        ∀ v ∈ values, v.isNull = false → ¬v.Matches type cell) := by
    intro hpresent
    simp only [allTruth_eq_true_iff, List.forall_mem_map, List.mem_filter, Bool.not_eq_true',
      and_imp]
    exact forall₃_congr fun v hv hnull => compared_ne_iff hnull (hcells v hv) hpresent
  push Not
  cases hcell : cell.isNull with
  | true =>
    have hmatches : ∀ v : Value, v.Matches type cell ↔ v.isNull = true := by
      intro v
      cases hnull : v.isNull with
      | true => simp [Value.matches_of_isNull hnull, hcell]
      | false => simp [Value.matches_of_not_isNull hnull, hcell]
    simp only [truth, hcell, hmatches]
    split
    · next hany => simpa [andTruth_eq_true_iff] using hany
    · next hnone => simpa [orTruth_eq_true_iff] using hnone
  | false =>
    have hmatches : ∀ v : Value, v.isNull = true → ¬v.Matches type cell := fun v hnull => by
      simp [Value.matches_of_isNull hnull, hcell]
    have hall : (∀ v ∈ values, v.isNull = false → ¬v.Matches type cell) ↔
        ∀ v ∈ values, ¬v.Matches type cell := by
      refine forall₂_congr fun v _ => ⟨fun h => ?_, fun h _ => h⟩
      cases hnull : v.isNull with
      | true => exact hmatches v hnull
      | false => exact h hnull
    rw [truth, ← hall, ← hothers hcell]
    simp only [hcell, Bool.not_false]
    split
    · simp [andTruth_eq_true_iff]
    · simp [orTruth_eq_true_iff]

end FilterOperator

namespace Column

/-- Whether a cell of a column is what one of the values of a clause stands for. -/
def IsOneOf (column : Column) (values : List Value) (cell : Cell) : Prop :=
  ∃ v ∈ values, (v.coerceTo column.type).Matches column.type cell

instance (column : Column) (values : List Value) : DecidablePred (column.IsOneOf values) :=
  fun _ => inferInstanceAs (Decidable (∃ v ∈ values, _))

end Column

namespace FilterCompiler

variable {k : FilterCompiler} {e : Entity} {column : Column} {path : FieldPath}
  {values : List Value}

/-- The condition of a clause on a column of an entity, when it does not compare by order. -/
theorem exists_clause? (operator : FilterOperator) (hordering : operator.isOrdering = false)
    (hk : k.registry = .standard) {r : Reach}
    (hcolumn : r.entity.column? (k.naming.toStorage path.field) = some column)
    (hvalues : values ≠ []) :
    ∃ p, k.clause? r ⟨operator, path, values⟩ = .ok p ∧
      operator.condition? (.column (column.at_ r.source))
        (if operator = .like then values else values.map (·.coerceTo column.type)) = .ok p := by
  have hends : (k.column? r.entity [] path.field).isSome := by rw [column?, hcolumn]; rfl
  have hclause := failsUnless_clause? (c := ⟨operator, path, values⟩) hk hends
  obtain ⟨p, hp⟩ := hclause.exists_eq_ok_iff.2 fun h => by
    rw [hordering] at h
    cases h
  obtain ⟨column', hcolumn', hcondition⟩ | ⟨hnone, -⟩ := clause?_eq_ok hvalues (fun _ => hends) hp
  · cases hcolumn.symm.trans hcolumn'
    exact ⟨p, hp, hcondition⟩
  · cases hcolumn.symm.trans hnone

/-- A filter of one clause on the entity itself. -/
theorem filter?_singleton {c : FilterClause} {p : Predicate} (hlocal : c.path.relations = [])
    (h : k.clause? e.reach c = .ok p) : k.filter? e [c] = .ok [p.simplified] := by
  have hclauses : [c].mapM (k.clause? e.reach) = .ok [p] := by
    rw [List.mapM_cons, h]
    rfl
  refine filter?_eq_ok.2 (.inr ⟨by simp, [p], ?_, rfl⟩)
  rw [entriesOf, List.map_singleton, hlocal]
  exact conditions?_eq_ok.2 ⟨⟨_, hclauses⟩, hclauses⟩

theorem satisfies_singleton {c : FilterClause} (db : Database) (hlocal : c.path.relations = [])
    (x : StoredRow) : k.satisfies db e (entriesOf [c]) x = k.holdsOf e x c := by
  rw [Bool.eq_iff_iff, satisfies_iff, entriesOf, List.map_singleton, hlocal]
  simp [Part.localClauses, Part.heads]

/-- All rows of the table of an entity. -/
theorem rows_all (db : Database) (hcolumns : e.columns ≠ []) :
    (Statement.all e).rows db = (db.rows e.table).map fun x => .record (some x) := by
  rw [Statement.rows_records rfl rfl rfl, Statement.frames_all hcolumns, List.map_map]
  exact List.map_congr_left fun x _ => congrArg _ (Frame.row?_cons_self ..)

/-- The rows that a clause keeps which does not compare by order. -/
theorem rows_filtered_singleton (db : Database) (hs : k.schema.WellFormed)
    (he : e ∈ k.schema.entities) (hlocal : path.relations = []) {operator : FilterOperator}
    {ps : List Predicate} (hcolumn : e.column? (k.naming.toStorage path.field) = some column)
    (hvalues : values ≠ []) (h : k.filter? e [⟨operator, path, values⟩] = .ok ps)
    {kept : Cell → Prop} [DecidablePred kept]
    (htruth : ∀ cell, operator.truth column.type cell
      (if operator = .like then values else values.map (·.coerceTo column.type)) = some true ↔
        kept cell) :
    ((Statement.all e).filtered ps).rows db =
      ((db.rows e.table).filter fun x => kept (x.get column.name)).map
        fun x => .record (some x) := by
  have hends : k.EndInColumns e (entriesOf [⟨operator, path, values⟩]) := by
    intro entry hentry
    obtain rfl := List.mem_singleton.1 hentry
    exact ⟨hvalues, fun _ => by simp [hlocal, column?, hcolumn]⟩
  rw [rows_filtered db hs he hends h]
  congr 2
  funext x
  rw [satisfies_singleton db hlocal, holdsOf, hcolumn, Bool.eq_iff_iff, decide_eq_true_iff,
    ← htruth]
  simp

/-- **Equality and its negation.** On a column of any source, equality is true of the cells that
some value stands for, and the negation with the same values is true where equality is not. As
filters of an entity they keep the rows whose cell is one of the values and the rows whose cell is
not, so both together are all rows, each once. -/
theorem eq_not_complementary (hk : k.registry = .standard)
    (hcolumn : e.column? (k.naming.toStorage path.field) = some column) (hvalues : values ≠ [])
    (hcells : ∀ v ∈ values, (v.coerceTo column.type).HasCell) :
    (∀ source, ∃ p q,
      k.clause? ⟨e, source⟩ ⟨.eq, path, values⟩ = .ok p ∧
      k.clause? ⟨e, source⟩ ⟨.not, path, values⟩ = .ok q ∧
      ∀ db f, (p.truth db f = some true ↔ column.IsOneOf values (f.get (column.at_ source))) ∧
        (q.truth db f = some true ↔ p.truth db f ≠ some true)) ∧
    (k.schema.WellFormed → e ∈ k.schema.entities → path.relations = [] → ∃ ps qs,
      k.filter? e [⟨.eq, path, values⟩] = .ok ps ∧ k.filter? e [⟨.not, path, values⟩] = .ok qs ∧
      ∀ db,
        ((Statement.all e).filtered ps).rows db =
          ((db.rows e.table).filter fun x => column.IsOneOf values (x.get column.name)).map
            (fun x => .record (some x)) ∧
        ((Statement.all e).filtered qs).rows db =
          ((db.rows e.table).filter fun x => ¬column.IsOneOf values (x.get column.name)).map
            (fun x => .record (some x)) ∧
        (((Statement.all e).filtered ps).rows db ++ ((Statement.all e).filtered qs).rows db).Perm
          ((Statement.all e).rows db)) := by
  have hcoerced : ∀ v ∈ values.map (·.coerceTo column.type), v.HasCell :=
    List.forall_mem_map.2 hcells
  have heq : ∀ cell, FilterOperator.eq.truth column.type cell
      (values.map (·.coerceTo column.type)) = some true ↔ column.IsOneOf values cell := fun cell =>
    (FilterOperator.truth_eq_iff hcoerced).trans (by simp [Column.IsOneOf])
  have hnot : ∀ cell, FilterOperator.not.truth column.type cell
      (values.map (·.coerceTo column.type)) = some true ↔ ¬column.IsOneOf values cell := fun cell =>
    (FilterOperator.truth_not_iff hcoerced).trans (by simp [Column.IsOneOf])
  refine ⟨fun source => ?_, fun hs he hlocal => ?_⟩
  · obtain ⟨p, hp, hpcond⟩ := exists_clause? .eq rfl hk (r := ⟨e, source⟩) hcolumn hvalues
    obtain ⟨q, hq, hqcond⟩ := exists_clause? .not rfl hk (r := ⟨e, source⟩) hcolumn hvalues
    refine ⟨p, q, hp, hq, fun db f => ?_⟩
    rw [FilterOperator.truth_condition? hpcond, FilterOperator.truth_condition? hqcond]
    exact ⟨heq _, (hnot _).trans (not_congr (heq _)).symm⟩
  · obtain ⟨p, hp, -⟩ := exists_clause? .eq rfl hk (r := e.reach) hcolumn hvalues
    obtain ⟨q, hq, -⟩ := exists_clause? .not rfl hk (r := e.reach) hcolumn hvalues
    have hps := filter?_singleton hlocal hp
    have hqs := filter?_singleton hlocal hq
    refine ⟨[p.simplified], [q.simplified], hps, hqs, fun db => ?_⟩
    have hkept := rows_filtered_singleton db hs he hlocal hcolumn hvalues hps heq
    have hrest := rows_filtered_singleton db hs he hlocal hcolumn hvalues hqs hnot
    refine ⟨hkept, hrest, ?_⟩
    rw [hkept, hrest, ← List.map_append, rows_all db (hs.entities e he).columns_ne_nil]
    refine .map _ ?_
    simpa using List.filter_append_perm
      (fun x => decide (column.IsOneOf values (x.get column.name))) (db.rows e.table)

end FilterCompiler

namespace Sample

/-- A kind of person, that or none, and the same kind again. -/
def monsterOrNull : List Value := [.text "monster", .null, .text "monster"]

theorem eq_not_monsterOrNull : monsterOrNull ≠ [] ∧ ∃ ps qs,
    filters.filter? person [⟨.eq, ⟨[], "type"⟩, monsterOrNull⟩] = .ok ps ∧
    filters.filter? person [⟨.not, ⟨[], "type"⟩, monsterOrNull⟩] = .ok qs ∧
    (((Statement.all person).filtered ps).rows database ++
      ((Statement.all person).filtered qs).rows database).Perm
        ((Statement.all person).rows database) := by
  have hvalues : monsterOrNull ≠ [] := by decide
  obtain ⟨-, hfilters⟩ := @FilterCompiler.eq_not_complementary filters person _ ⟨[], "type"⟩
    monsterOrNull rfl rfl hvalues (by decide)
  obtain ⟨ps, qs, hps, hqs, hrows⟩ := hfilters schema_wellFormed (by decide) rfl
  exact ⟨hvalues, ps, qs, hps, hqs, (hrows database).2.2⟩

/-- What is not a number is null in the store: neither equality with it nor the negation keeps a
row with an age. -/
theorem eq_not_nan_lose_rows :
    ¬ ∀ values ps qs, values ≠ [] →
      filters.filter? person [⟨.eq, ⟨[], "age"⟩, values⟩] = .ok ps →
      filters.filter? person [⟨.not, ⟨[], "age"⟩, values⟩] = .ok qs →
        (((Statement.all person).filtered ps).rows database ++
          ((Statement.all person).filtered qs).rows database).Perm
            ((Statement.all person).rows database) := by
  intro h
  have hkept : ∀ operator ps,
      filters.filter? person [⟨operator, ⟨[], "age"⟩, [.float .nan]⟩] = .ok ps →
        ((Statement.all person).filtered ps).rows database =
          ((database.rows "person").filter fun x =>
            filters.holdsOf person x ⟨operator, ⟨[], "age"⟩, [.float .nan]⟩).map
              fun x => .record (some x) := by
    intro operator ps hps
    rw [FilterCompiler.rows_filtered database schema_wellFormed (by decide) ?_ hps]
    · exact congrArg _ (List.filter_congr fun x _ =>
        FilterCompiler.satisfies_singleton database rfl x)
    · intro entry hentry
      obtain rfl := List.mem_singleton.1 hentry
      exact ⟨by simp, fun _ => rfl⟩
  have hrows := (h [.float .nan] _ _ (by simp) rfl rfl).length_eq
  rw [hkept .eq _ rfl, hkept .not _ rfl, FilterCompiler.rows_all database (by decide),
    List.length_append, List.length_map, List.length_map, List.length_map] at hrows
  exact absurd hrows (by decide +kernel)

end Sample

end ResourceQuery
