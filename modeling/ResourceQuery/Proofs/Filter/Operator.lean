import ResourceQuery.Proofs.Filter.Forms

/-!
# The meaning of filter operators

What an operator says about one cell, without predicates and frames, and that the condition that is
compiled for it says the same.

* `FilterOperator.truth`: the truth of an operator for a cell and the values of a clause;
* `FilterOperator.truth_condition?`: the condition of an operator has this truth on every frame;
* `FilterOperator.sources_condition?`: it mentions nothing but the column;
* `FilterOperator.condition?_relation`: only `like` has a condition on a relation;
* `FilterOperator.holdsOfClass`, `FilterOperator.condition?_ofClass_eq_ok`: a class attribute is
  compared at once, and the condition mentions nothing.
-/

namespace ResourceQuery

namespace Predicate

theorem sources_allOf (ps : List Predicate) : (allOf ps).sources = ps.flatMap (·.sources) := by
  induction ps with
  | nil => rfl
  | cons p rest ih =>
    cases rest with
    | nil => simp [allOf]
    | cons q rest => exact congrArg (p.sources ++ ·) ih

theorem sources_anyOf (ps : List Predicate) : (anyOf ps).sources = ps.flatMap (·.sources) := by
  induction ps with
  | nil => rfl
  | cons p rest ih =>
    cases rest with
    | nil => simp [anyOf]
    | cons q rest => exact congrArg (p.sources ++ ·) ih

theorem flatMap_sources_subset {ps : List Predicate} {ss : List Source}
    (h : ∀ p ∈ ps, p.sources ⊆ ss) : ps.flatMap (·.sources) ⊆ ss := by
  intro s hs
  obtain ⟨p, hp, hs⟩ := List.mem_flatMap.1 hs
  exact h p hp hs

end Predicate

namespace FilterOperator

/-- A cell of a column compared with a value. -/
def compared (type : ColumnType) (cell : Cell) (comparison : Comparison) (v : Value) :
    Option Bool :=
  Cell.compare? comparison cell ((Cell.ofValue v).forColumn type)

/-- The truth of an operator for a cell of a column and some values. -/
def truth (operator : FilterOperator) (type : ColumnType) (cell : Cell) (values : List Value) :
    Option Bool :=
  match operator with
  | eq => anyTruth (values.map fun v =>
      if v.isNull then some cell.isNull else compared type cell .eq v)
  | like => anyTruth (values.map fun v =>
      if v.isNull then some cell.isNull
      else cell.matchesPattern? (some escapeMark) (fragmentPattern v.plain))
  | not =>
    let others := allTruth ((values.filter (!·.isNull)).map (compared type cell .ne))
    if values.any (·.isNull) then andTruth (some !cell.isNull) others
    else orTruth (some cell.isNull) others
  | lt => allTruth (values.map (compared type cell .lt))
  | lte => allTruth (values.map (compared type cell .le))
  | gt => allTruth (values.map (compared type cell .gt))
  | gte => allTruth (values.map (compared type cell .ge))

variable {db : Database} {f : Frame} {c : ColumnRef} {v : Value} {values : List Value}
  {p : Predicate}

/-! ## Conditions of one value -/

theorem truth_equals? (h : (ResolvedField.column c).equals? v = .ok p) :
    p.truth db f = if v.isNull then some (f.get c).isNull else compared c.type (f.get c) .eq v := by
  unfold ResolvedField.equals? at h
  split at h
  · next hv =>
    cases h
    rw [if_pos hv]
    rfl
  · next hv =>
    cases h
    rw [if_neg hv]
    rfl

theorem truth_contains? (h : (ResolvedField.column c).contains? v = .ok p) :
    p.truth db f = if v.isNull then some (f.get c).isNull
      else (f.get c).matchesPattern? (some escapeMark) (fragmentPattern v.plain) := by
  unfold ResolvedField.contains? at h
  split at h
  · next hv =>
    cases h
    rw [if_pos hv]
    rfl
  · next hv =>
    cases h
    rw [if_neg hv]
    rfl

theorem ordered?_eq_ok {comparison : Comparison}
    (h : (ResolvedField.column c).ordered? comparison v = .ok p) : p = .compare c comparison v := by
  cases v <;> cases h <;> rfl

theorem sources_equals? (h : (ResolvedField.column c).equals? v = .ok p) :
    p.sources ⊆ [c.source] := by
  unfold ResolvedField.equals? at h
  split at h <;> cases h <;> exact List.Subset.refl _

theorem sources_contains? (h : (ResolvedField.column c).contains? v = .ok p) :
    p.sources ⊆ [c.source] := by
  unfold ResolvedField.contains? at h
  split at h <;> cases h <;> exact List.Subset.refl _

/-! ## Conditions of several values -/

theorem allOrdered?_eq_ok {comparison : Comparison}
    (h : allOrdered? comparison (.column c) values = .ok p) :
    p = .allOf (values.map (.compare c comparison)) := by
  obtain ⟨ps, hps, rfl⟩ := map_eq_ok.1 h
  have hmap : ps.map id = values.map (.compare c comparison) :=
    map_eq_of_mapM_eq_ok hps fun _ _ _ => ordered?_eq_ok
  rw [← hmap, List.map_id]

theorem noneOf?_eq_ok (h : noneOf? (.column c) values = .ok p) :
    p = if values.any (·.isNull)
      then .allOf (.notNull c :: (values.filter (!·.isNull)).map (.compare c .ne))
      else .either (.isNull c) (.allOf ((values.filter (!·.isNull)).map (.compare c .ne))) := by
  obtain ⟨others, hothers, h⟩ := bind_eq_ok.1 h
  have hmap : others.map id = (values.filter (!·.isNull)).map (.compare c .ne) :=
    map_eq_of_mapM_eq_ok hothers fun _ _ _ hp => by cases hp; rfl
  rw [List.map_id] at hmap
  subst hmap
  split at h
  · next hnull =>
    cases h
    rw [if_pos hnull]
  · next hnull =>
    cases h
    rw [if_neg hnull]

theorem truth_allOrdered {comparison : Comparison} (hlike : comparison ≠ .like) :
    (Predicate.allOf (values.map (.compare c comparison))).truth db f =
      allTruth (values.map (compared c.type (f.get c) comparison)) := by
  rw [Predicate.truth_allOf, List.map_map]
  cases comparison <;> first | rfl | exact absurd rfl hlike

theorem truth_condition? {operator : FilterOperator}
    (h : operator.condition? (.column c) values = .ok p) :
    p.truth db f = operator.truth c.type (f.get c) values := by
  cases operator with
  | eq =>
    obtain ⟨ps, hps, rfl⟩ := map_eq_ok.1 h
    rw [Predicate.truth_anyOf, map_eq_of_mapM_eq_ok hps fun _ _ _ hp => truth_equals? hp]
    rfl
  | like =>
    obtain ⟨ps, hps, rfl⟩ := map_eq_ok.1 h
    rw [Predicate.truth_anyOf, map_eq_of_mapM_eq_ok hps fun _ _ _ hp => truth_contains? hp]
    rfl
  | not =>
    rw [noneOf?_eq_ok h]
    unfold truth
    split
    · rw [Predicate.truth_allOf, List.map_cons, List.map_map]
      rfl
    · rw [← truth_allOrdered (by decide)]
      rfl
  | lt | lte | gt | gte =>
    rw [allOrdered?_eq_ok h]
    exact truth_allOrdered (by decide)

theorem sources_condition? {operator : FilterOperator}
    (h : operator.condition? (.column c) values = .ok p) : p.sources ⊆ [c.source] := by
  have hcompared : ∀ comparison (vs : List Value),
      (vs.map (Predicate.compare c comparison)).flatMap (·.sources) ⊆ [c.source] := by
    refine fun comparison vs => Predicate.flatMap_sources_subset fun q hq => ?_
    obtain ⟨v, -, rfl⟩ := List.mem_map.1 hq
    exact List.Subset.refl _
  cases operator with
  | eq =>
    obtain ⟨ps, hps, rfl⟩ := map_eq_ok.1 h
    rw [Predicate.sources_anyOf]
    exact Predicate.flatMap_sources_subset
      ((forall_of_mapM_eq_ok hps _).2 fun _ _ _ => sources_equals?)
  | like =>
    obtain ⟨ps, hps, rfl⟩ := map_eq_ok.1 h
    rw [Predicate.sources_anyOf]
    exact Predicate.flatMap_sources_subset
      ((forall_of_mapM_eq_ok hps _).2 fun _ _ _ => sources_contains?)
  | not =>
    rw [noneOf?_eq_ok h]
    split
    · rw [Predicate.sources_allOf, List.flatMap_cons]
      exact List.append_subset.2 ⟨List.Subset.refl _, hcompared _ _⟩
    · rw [Predicate.sources, Predicate.sources_allOf]
      exact List.append_subset.2 ⟨List.Subset.refl _, hcompared _ _⟩
  | lt | lte | gt | gte =>
    rw [allOrdered?_eq_ok h, Predicate.sources_allOf]
    exact hcompared _ _

theorem equals?_relation {r : Relationship} {es : List Equality} :
    (ResolvedField.relation r es).equals? v ≠ .ok p := by
  intro h
  unfold ResolvedField.equals? at h
  split at h <;> cases h

/-! ## Conditions on relations and class attributes -/

/-- An operator other than `like` has no condition on a relation. -/
theorem condition?_relation {operator : FilterOperator} {r : Relationship} {es : List Equality}
    (hlike : operator ≠ .like) (hvalues : values ≠ []) :
    operator.condition? (.relation r es) values ≠ .ok p := by
  obtain ⟨v, rest, rfl⟩ := List.exists_cons_of_ne_nil hvalues
  intro h
  cases operator with
  | like => exact hlike rfl
  | eq =>
    obtain ⟨ps, hps, -⟩ := map_eq_ok.1 h
    obtain ⟨q, hq⟩ := exists_mapM_eq_ok.1 ⟨ps, hps⟩ v (List.mem_cons_self ..)
    exact equals?_relation hq
  | not =>
    obtain ⟨others, -, h⟩ := bind_eq_ok.1 h
    split at h <;> cases h
  | lt | lte | gt | gte =>
    simp only [condition?, allOrdered?, map_eq_ok] at h
    obtain ⟨ps, hps, -⟩ := h
    obtain ⟨q, hq⟩ := exists_mapM_eq_ok.1 ⟨ps, hps⟩ v (List.mem_cons_self ..)
    cases hq

/-- Whether a class attribute stands in an order to all of some values. -/
def ordersAll (a : ClassAttribute) (comparison : Comparison) (values : List Value) : Bool :=
  values.all fun v => (a.orders? comparison v).toOption == some true

/-- Whether an operator holds of a class attribute and some values. Only equality and the orders
have an answer without a row. -/
def holdsOfClass (operator : FilterOperator) (a : ClassAttribute) (values : List Value) : Bool :=
  match operator with
  | eq => values.any a.equals
  | like | not => false
  | lt => ordersAll a .lt values
  | lte => ordersAll a .le values
  | gt => ordersAll a .gt values
  | gte => ordersAll a .ge values

variable {a : ClassAttribute}

theorem equals?_ofClass_eq_ok (h : (ResolvedField.ofClass a).equals? v = .ok p) :
    p = .ofTruth (a.equals v) := by
  unfold ResolvedField.equals? at h
  split at h <;> cases h
  rfl

theorem ordered?_ofClass_eq_ok {comparison : Comparison}
    (h : (ResolvedField.ofClass a).ordered? comparison v = .ok p) :
    p = .ofTruth ((a.orders? comparison v).toOption == some true) := by
  obtain ⟨b, hb, rfl⟩ := map_eq_ok.1 h
  rw [hb]
  cases b <;> rfl

theorem allOrdered?_ofClass_eq_ok {comparison : Comparison}
    (h : allOrdered? comparison (.ofClass a) values = .ok p) :
    p = .allOf (values.map fun v =>
      .ofTruth ((a.orders? comparison v).toOption == some true)) := by
  obtain ⟨ps, hps, rfl⟩ := map_eq_ok.1 h
  have hmap : ps.map id = values.map fun v =>
      .ofTruth ((a.orders? comparison v).toOption == some true) :=
    map_eq_of_mapM_eq_ok hps fun _ _ _ => ordered?_ofClass_eq_ok
  rw [← hmap, List.map_id]

/-- The condition of an operator on a class attribute mentions nothing, and is a truth value. -/
theorem condition?_ofClass_eq_ok {operator : FilterOperator} (hlike : operator ≠ .like)
    (h : operator.condition? (.ofClass a) values = .ok p) :
    p.sources = [] ∧ ∀ db f, p.truth db f = some (operator.holdsOfClass a values) := by
  have hordered : ∀ comparison, allOrdered? comparison (.ofClass a) values = .ok p →
      p.sources = [] ∧ ∀ db f, p.truth db f = some (ordersAll a comparison values) := by
    intro comparison h
    rw [allOrdered?_ofClass_eq_ok h]
    refine ⟨by simp [Predicate.sources_allOf, Predicate.sources_ofTruth], fun db f => ?_⟩
    rw [Predicate.truth_allOf, List.map_map]
    simp only [Function.comp_def, Predicate.truth_ofTruth]
    exact allTruth_map_some
  cases operator with
  | eq =>
    obtain ⟨ps, hps, rfl⟩ := map_eq_ok.1 h
    have hmap : ps.map id = values.map fun v => .ofTruth (a.equals v) :=
      map_eq_of_mapM_eq_ok hps fun _ _ _ => equals?_ofClass_eq_ok
    rw [← List.map_id ps, hmap]
    refine ⟨by simp [Predicate.sources_anyOf, Predicate.sources_ofTruth], fun db f => ?_⟩
    rw [Predicate.truth_anyOf, List.map_map]
    simp only [Function.comp_def, Predicate.truth_ofTruth]
    exact anyTruth_map_some
  | like => exact absurd rfl hlike
  | not =>
    obtain ⟨others, -, h⟩ := bind_eq_ok.1 h
    split at h <;> cases h
  | lt | lte | gt | gte => exact hordered _ h

end FilterOperator

end ResourceQuery
